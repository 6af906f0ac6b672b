import RoutedSession.Json.Printer
import RoutedSession.Json.Record
import RoutedSession.RouteTable

/-!
The two records that open a connection, and their JSON forms: what the client says about itself, and
what the server answers.
-/

namespace RoutedSession

/-- What a client says about its software. -/
structure ClientInfo where
  platform : String := "rust"
  libVersion : String := "0.1.0"
  buildNumber : String := "1"
  version : String := "1.0.0"
  deriving DecidableEq, Repr

namespace ClientInfo

/-- The JSON form of a client's description. -/
def toJson (client : ClientInfo) : Json :=
  .object [("platform", .string client.platform), ("libVersion", .string client.libVersion),
    ("clientBuildNumber", .string client.buildNumber), ("clientVersion", .string client.version)]

/-- The fields of a description that have been read. -/
structure Parts where
  platform : Option String := none
  libVersion : Option String := none
  buildNumber : Option String := none
  version : Option String := none
  deriving DecidableEq, Repr

open Json.Read in
/-- The fields of a description in their order. -/
def fields : List (RecordField Parts) :=
  [.keep "platform" (·.platform) ({ · with platform := some · }) fun _ => quoted,
    .keep "libVersion" (·.libVersion) ({ · with libVersion := some · }) fun _ => quoted,
    .keep "clientBuildNumber" (·.buildNumber) ({ · with buildNumber := some · }) fun _ => quoted,
    .keep "clientVersion" (·.version) ({ · with version := some · }) fun _ => quoted]

open Json.Read in
/-- The description made of its fields. All of them must be there. -/
def ofParts (parts : Parts) : Except Json.ReadError ClientInfo := do
  let platform ← required parts.platform
  let libVersion ← required parts.libVersion
  let buildNumber ← required parts.buildNumber
  let version ← required parts.version
  return { platform, libVersion, buildNumber, version }

def reader : (depth : Nat) → Json.Read.Reader ClientInfo :=
  Json.Read.record fields {} ofParts

def parse (text : Bytes) : Except Json.ReadError ClientInfo :=
  Json.Read.whole (reader Json.Read.maxDepth) text

end ClientInfo

/-- The client's offer: what it is, and whatever the application adds, sorted by name. -/
structure HandshakeRequest where
  client : ClientInfo := {}
  user : List (String × Json) := []
  deriving Repr

namespace HandshakeRequest

/-- The JSON form of an offer. -/
def toJson (request : HandshakeRequest) : Json :=
  .object (("sys", request.client.toJson) ::
    if request.user.isEmpty then [] else [("user", .object request.user)])

def text (request : HandshakeRequest) : Bytes :=
  request.toJson.print

/-- The fields of an offer that have been read. -/
structure Parts where
  client : Option ClientInfo := none
  user : Option (List (String × Json)) := none

open Json.Read in
/-- The fields of an offer in their order. -/
def fields : List (RecordField Parts) :=
  [.keep "sys" (·.client) ({ · with client := some · }) ClientInfo.reader,
    .keep "user" (·.user) ({ · with user := some · }) fun depth => map depth value]

open Json.Read in
/-- The offer made of its fields. The application may add nothing. -/
def ofParts (parts : Parts) : Except Json.ReadError HandshakeRequest := do
  let client ← required parts.client
  return { client, user := parts.user.getD [] }

def parse (text : Bytes) : Except Json.ReadError HandshakeRequest :=
  Json.Read.whole (Json.Read.record fields {} ofParts Json.Read.maxDepth) text

end HandshakeRequest

/-- What a server says about the session: codes for routes, sorted by route; the seconds between two
heartbeats, or zero for none; and how it writes its payloads. -/
structure ServerInfo where
  routes : List (String × RouteCode) := []
  heartbeat : UInt64 := 0
  serializer : String := ""
  deriving DecidableEq, Repr

namespace ServerInfo

def toJson (server : ServerInfo) : Json :=
  .object [("dict", .object (server.routes.map fun (route, code) =>
      (route, .number (.int code.toNat)))),
    ("heartbeat", .number (.int server.heartbeat.toNat)), ("serializer", .string server.serializer)]

/-- The fields that have been read. -/
structure Parts where
  routes : Option (List (String × RouteCode)) := none
  heartbeat : Option UInt64 := none
  serializer : Option String := none

open Json.Read in
/-- A number of 16 bits. -/
def code : Reader RouteCode := fun bytes =>
  (naturalBelow (Nat.pow 2 16) bytes).map fun (value, rest) => (value.toUInt16, rest)

open Json.Read in
/-- A number of 64 bits. -/
def seconds : Reader UInt64 := fun bytes =>
  (naturalBelow (Nat.pow 2 64) bytes).map fun (value, rest) => (value.toUInt64, rest)

open Json.Read in
/-- The fields in their order. -/
def fields : List (RecordField Parts) :=
  [.keep "dict" (·.routes) ({ · with routes := some · }) fun depth => map depth fun _ => code,
    .keep "heartbeat" (·.heartbeat) ({ · with heartbeat := some · }) fun _ => seconds,
    .keep "serializer" (·.serializer) ({ · with serializer := some · }) fun _ => quoted]

/-- What is made of the fields. None of them has to be there. -/
def ofParts (parts : Parts) : Except Json.ReadError ServerInfo :=
  .ok { routes := parts.routes.getD []
        heartbeat := parts.heartbeat.getD 0
        serializer := parts.serializer.getD "" }

def reader : (depth : Nat) → Json.Read.Reader ServerInfo :=
  Json.Read.record fields {} ofParts

end ServerInfo

/-- The server's answer. -/
structure HandshakeResponse where
  /-- What the server thinks of the offer. -/
  code : UInt16
  server : ServerInfo := {}
  deriving DecidableEq, Repr

namespace HandshakeResponse

/-- The code of an answer that accepts the offer. -/
def accepted : UInt16 := 200

/-- The seconds between two heartbeats, if there are any. -/
def heartbeatInterval? (response : HandshakeResponse) : Option UInt64 :=
  if response.server.heartbeat = 0 then none else some response.server.heartbeat

/-- The JSON form of an answer. -/
def toJson (response : HandshakeResponse) : Json :=
  .object [("code", .number (.int response.code.toNat)), ("sys", response.server.toJson)]

def text (response : HandshakeResponse) : Bytes :=
  response.toJson.print

/-- The fields of an answer that have been read. -/
structure Parts where
  code : Option UInt16 := none
  server : Option ServerInfo := none

open Json.Read in
/-- The fields of an answer in their order. -/
def fields : List (RecordField Parts) :=
  [.keep "code" (·.code) ({ · with code := some · }) fun _ => ServerInfo.code,
    .keep "sys" (·.server) ({ · with server := some · }) ServerInfo.reader]

open Json.Read in
/-- The answer made of its fields. The server may say nothing about the session. -/
def ofParts (parts : Parts) : Except Json.ReadError HandshakeResponse := do
  let code ← required parts.code
  return { code, server := parts.server.getD {} }

def ofText (text : Bytes) : Except Json.ReadError HandshakeResponse :=
  Json.Read.whole (Json.Read.record fields {} ofParts Json.Read.maxDepth) text

end HandshakeResponse

end RoutedSession
