import RoutedSession.Handshake.Answer
import RoutedSession.Proofs.Json.Records

namespace RoutedSession

open Json Json.Read

namespace ClientInfo

theorem writes_reader (client : ClientInfo) (depth : Nat) :
    Writes (reader (depth + 1)) client.toJson.print client := by
  have hplatform : fields.find? (·.name == "platform") = fields[0]? := rfl
  have hlibVersion : fields.find? (·.name == "libVersion") = fields[1]? := rfl
  have hbuildNumber : fields.find? (·.name == "clientBuildNumber") = fields[2]? := rfl
  have hversion : fields.find? (·.name == "clientVersion") = fields[3]? := rfl
  rw [toJson, print_object]
  exact writes_record (.cons (finds_recordMember hplatform rfl (writes_keep (writes_quoted _)))
    (.cons (finds_recordMember hlibVersion rfl (writes_keep (writes_quoted _)))
      (.cons (finds_recordMember hbuildNumber rfl (writes_keep (writes_quoted _)))
        (.cons (finds_recordMember hversion rfl (writes_keep (writes_quoted _))) .nil)))) rfl

end ClientInfo

namespace HandshakeRequest

theorem depthMembers_le {request : HandshakeRequest} {depth : Nat}
    (hdepth : request.toJson.depth ≤ depth + 2) : depthMembers request.user ≤ depth := by
  cases huser : request.user with
  | nil => exact Nat.zero_le depth
  | cons member user =>
      have hobject : request.toJson.depth =
          max 1 (max (depthMembers (member :: user) + 1) 0) + 1 := by
        rw [toJson, huser]
        rfl
      omega

theorem writes_user {user written : List (String × Json)} {depth : Nat}
    (hexact : (Json.object user).Exact) (hdepth : depthMembers user ≤ depth)
    (hwritten : written.Perm user) :
    Writes (map (depth + 1) value) (print (.object written)) user := by
  have hmembers := writes_members user hexact.2 hdepth
  have hgathers := gathers_kept (fun member hmember =>
    hmembers member (hwritten.mem_iff.mp hmember)) []
  rw [setAll_of_perm hexact.1 hwritten] at hgathers
  rw [print_object]
  exact writes_ofMap hgathers

theorem parse_text {request : HandshakeRequest} {written : List (String × Json)}
    (hexact : (Json.object request.user).Exact) (hdepth : request.toJson.depth ≤ maxDepth)
    (hwritten : written.Perm request.user) :
    parse { request with user := written }.text = .ok request := by
  have hsys : fields.find? (·.name == "sys") = fields[0]? := rfl
  have huser : fields.find? (·.name == "user") = fields[1]? := rfl
  have hclient := request.client.writes_reader 125
  refine whole_of_writes ?_
  rw [text, toJson, print_object]
  cases written with
  | nil =>
      have hfinish : ofParts { client := some request.client } = .ok request := by
        obtain ⟨client, user⟩ := request
        obtain rfl : user = [] := hwritten.symm.eq_nil
        rfl
      exact writes_record (.cons (finds_recordMember hsys rfl (writes_keep hclient)) .nil) hfinish
  | cons member written =>
      have hmap := writes_user hexact (depthMembers_le hdepth) hwritten
      exact writes_record (.cons (finds_recordMember hsys rfl (writes_keep hclient))
        (.cons (finds_recordMember huser rfl (writes_keep hmap)) .nil)) rfl

end HandshakeRequest

namespace ServerInfo

theorem writes_code (code : RouteCode) :
    Writes ServerInfo.code (printNumber (.int code.toNat)) code := by
  have hcode : code.toNat.toUInt16 = code := UInt16.ofNat_toNat
  have hwrites := writes_map (f := Nat.toUInt16) (writes_naturalBelow code.toNat_lt (by decide))
  rw [hcode] at hwrites
  exact hwrites

theorem writes_seconds (seconds : UInt64) :
    Writes ServerInfo.seconds (printNumber (.int seconds.toNat)) seconds := by
  have hseconds : seconds.toNat.toUInt64 = seconds := UInt64.ofNat_toNat
  have hwrites := writes_map (f := Nat.toUInt64) (writes_naturalBelow seconds.toNat_lt (by decide))
  rw [hseconds] at hwrites
  exact hwrites

theorem writes_reader {server : ServerInfo} {written : List (String × RouteCode)}
    (hroutes : KeysAscend server.routes) (hwritten : written.Perm server.routes) (depth : Nat) :
    Writes (reader (depth + 2)) { server with routes := written }.toJson.print server := by
  have hdict : fields.find? (·.name == "dict") = fields[0]? := rfl
  have hheartbeat : fields.find? (·.name == "heartbeat") = fields[1]? := rfl
  have hserializer : fields.find? (·.name == "serializer") = fields[2]? := rfl
  have hmap : Writes (map (depth + 1) fun _ => code)
      (print (.object (written.map fun entry => (entry.1, .number (.int entry.2.toNat)))))
      server.routes := by
    have hgathers := @gathers_kept _ code (fun code => printNumber (.int code.toNat)) written
      (fun entry _ => writes_code entry.2) []
    rw [setAll_of_perm hroutes hwritten] at hgathers
    rw [print_object, List.map_map]
    exact writes_ofMap hgathers
  rw [toJson, print_object]
  exact writes_record (.cons (finds_recordMember hdict rfl (writes_keep hmap))
    (.cons (finds_recordMember hheartbeat rfl (writes_keep (writes_seconds server.heartbeat)))
      (.cons (finds_recordMember hserializer rfl (writes_keep (writes_quoted _))) .nil))) rfl

end ServerInfo

namespace HandshakeResponse

theorem ofText_text {response : HandshakeResponse} {written : List (String × RouteCode)}
    (hroutes : KeysAscend response.server.routes) (hwritten : written.Perm response.server.routes) :
    ofText { response with server := { response.server with routes := written } }.text =
      .ok response := by
  have hcode : fields.find? (·.name == "code") = fields[0]? := rfl
  have hsys : fields.find? (·.name == "sys") = fields[1]? := rfl
  have hserver := ServerInfo.writes_reader hroutes hwritten 124
  refine whole_of_writes ?_
  rw [text, toJson, print_object]
  exact writes_record
    (.cons (finds_recordMember hcode rfl (writes_keep (ServerInfo.writes_code response.code)))
      (.cons (finds_recordMember hsys rfl (writes_keep hserver)) .nil)) rfl

theorem plainText_text (response : HandshakeResponse) :
    plainText response.text = .ok response.text := by
  have hplain : Gzip.isCompressed response.text = false := by
    rw [text, toJson, print_object]
    rfl
  rw [plainText, hplain]
  rfl

end HandshakeResponse

/-- Both records are read back from their texts. What the application adds and the routes are maps,
whose members may be written in any order; an empty one of the application is not written. An answer
that does not accept is an error with its code. -/
theorem handshake_records_read_back {request : HandshakeRequest} {user : List (String × Json)}
    {response : HandshakeResponse} {routes : List (String × RouteCode)}
    (hexact : (Json.object request.user).Exact) (hdepth : request.toJson.depth ≤ maxDepth)
    (huser : user.Perm request.user) (hascend : KeysAscend response.server.routes)
    (hroutes : routes.Perm response.server.routes) :
    HandshakeRequest.parse { request with user }.text = .ok request ∧
      (request.user = [] →
        { request with user }.text = (Json.object [("sys", request.client.toJson)]).print) ∧
      HandshakeResponse.parse { response with server := { response.server with routes } }.text =
        if response.code = HandshakeResponse.accepted then .ok response
        else .error (.rejected response.code) := by
  refine ⟨HandshakeRequest.parse_text hexact hdepth huser, ?_, ?_⟩
  · intro hnone
    rw [hnone] at huser
    obtain rfl : user = [] := huser.eq_nil
    rfl
  · rw [HandshakeResponse.parse, HandshakeResponse.plainText_text]
    simp only [bind, Except.bind, HandshakeResponse.ofText_text hascend hroutes, Except.mapError]
    rfl

/-- An offer with control characters, the least and the greatest integer, and a map in a map. -/
def richRequest : HandshakeRequest where
  client := { platform := "a\"\\\n\u0001", version := "é\u007f" }
  user := [("", .null), ("\u0000/", .object [("k", .array [.bool true, .string "\t", .array []])]),
    ("n", .array [.number (.int (-2 ^ 63)), .number (.int (2 ^ 64 - 1))])]

/-- An answer that refuses, with routes whose names need escapes. -/
def refusal : HandshakeResponse where
  code := 401
  server := { routes := [("", 0), ("a.\"b\"", 65535), ("é", 7)], heartbeat := 18446744073709551615 }

theorem handshake_records_read_back_rich :
    HandshakeRequest.parse { richRequest with user := richRequest.user.reverse }.text =
        .ok richRequest ∧
      HandshakeResponse.parse { refusal with server :=
        { refusal.server with routes := refusal.server.routes.reverse } }.text =
          .error (.rejected 401) := by
  have hread := handshake_records_read_back (show (Json.object richRequest.user).Exact by decide)
    (by decide) (List.reverse_perm richRequest.user)
    (show KeysAscend refusal.server.routes by decide) (List.reverse_perm refusal.server.routes)
  exact ⟨hread.1, hread.2.2⟩

end RoutedSession
