import RoutedSession.Message.Basic

/-!
The written form of a message: a byte of flags, the id, the route, and the payload up to the end.
A route is its code in two bytes if the table has one, and otherwise its length in one byte and its
UTF-8 form. Messages are always written with a plain payload.
-/

namespace RoutedSession.Message

/-- The first byte of a message. -/
structure Flags where
  kind : MessageKind
  isError : Bool
  isCompressed : Bool
  hasRouteCode : Bool
  deriving DecidableEq, Repr

namespace Flags

def routeCodeBit : UInt8 := 0x01

def compressedBit : UInt8 := 0x10

/-- Bit 5: the answer tells of a failure. -/
def errorBit : UInt8 := 0x20

/-- Whether any of the bits in `mask` is set. -/
def hasBit (byte mask : UInt8) : Bool :=
  byte &&& mask != 0

/-- The number of the kind, in bits 1 to 3. -/
def kindCode (byte : UInt8) : UInt8 :=
  (byte >>> 1) &&& 7

def byte (flags : Flags) : UInt8 :=
  (flags.kind.code <<< 1) |||
    (if flags.hasRouteCode then routeCodeBit else 0) |||
    (if flags.isCompressed then compressedBit else 0) |||
    (if flags.isError then errorBit else 0)

/-- The flags in a byte. Bits 6 and 7 mean nothing. -/
def ofByte (byte : UInt8) : Except DecodeError Flags :=
  match MessageKind.ofCode? (kindCode byte) with
  | none => .error (.invalidKind (kindCode byte))
  | some kind =>
      .ok ⟨kind, hasBit byte errorBit, hasBit byte compressedBit, hasBit byte routeCodeBit⟩

end Flags

/-- The longest route that can be written out. -/
def maxRouteLength : Nat := 255

/-- The only way in which a message cannot be written: its route has no code and too many bytes. -/
structure RouteTooLong where
  length : Nat
  deriving DecidableEq, Repr

def RouteTooLong.message (error : RouteTooLong) : String :=
  s!"Route length {error.length} exceeds {maxRouteLength} bytes"

def routeCode? (table : RouteTable) (message : Message) : Option RouteCode :=
  if message.kind.hasRoute then table.code? message.route else none

/-- The written id of a message, if its kind has one. -/
def idBytes (message : Message) : Bytes :=
  if message.kind.hasId then Varint.encode message.id else []

/-- The written route of a message, if its kind has one. -/
def routeBytes (table : RouteTable) (message : Message) : Except RouteTooLong Bytes :=
  if message.kind.hasRoute then
    match table.code? message.route with
    | some code => .ok (Bytes.ofNatBE 2 code.toNat)
    | none =>
        let route := Bytes.ofString message.route
        if route.length ≤ maxRouteLength then .ok (route.length.toUInt8 :: route)
        else .error ⟨route.length⟩
  else .ok []

def flags (table : RouteTable) (message : Message) : Flags :=
  ⟨message.kind, message.isError, false, (message.routeCode? table).isSome⟩

/-- The written form of a message. -/
def encode (table : RouteTable) (message : Message) : Except RouteTooLong Bytes :=
  (message.routeBytes table).map fun route =>
    (message.flags table).byte :: message.idBytes ++ route ++ message.payload

def takeId (kind : MessageKind) (bytes : Bytes) : Except DecodeError (UInt32 × Bytes) :=
  if kind.hasId then (Varint.decode bytes).mapError .ofFault else .ok (0, bytes)

/-- Takes a route given by its code. -/
def takeCodedRoute (table : RouteTable) (bytes : Bytes) : Except DecodeError (String × Bytes) :=
  match bytes with
  | high :: low :: rest =>
      let code : RouteCode := (Bytes.toNatBE [high, low]).toUInt16
      match table.route? code with
      | none => .error (.unknownRoute code)
      | some route => .ok (route, rest)
  | _ => .error .truncated

def takeWrittenRoute (bytes : Bytes) : Except DecodeError (String × Bytes) :=
  match bytes with
  | [] => .error .truncated
  | length :: rest =>
      match Bytes.split? length.toNat rest with
      | none => .error .truncated
      | some (route, rest) =>
          match Bytes.toString? route with
          | none => .error .invalidRoute
          | some route => .ok (route, rest)

/-- Takes the route, if the kind has one. -/
def takeRoute (table : RouteTable) (flags : Flags) (bytes : Bytes) :
    Except DecodeError (String × Bytes) :=
  if flags.kind.hasRoute then
    if flags.hasRouteCode then takeCodedRoute table bytes else takeWrittenRoute bytes
  else .ok ("", bytes)

/-- The payload that the bytes after the route stand for. -/
def readPayload (flags : Flags) (bytes : Bytes) : Except DecodeError Bytes :=
  if flags.isCompressed then (Gzip.decompress bytes).mapError .inflate else .ok bytes

/-- The message that the bytes write. The parts are judged from first to last. -/
def decode (table : RouteTable) : Bytes → Except DecodeError Message
  | [] => .error .truncated
  | byte :: rest => do
      let flags ← Flags.ofByte byte
      let (id, rest) ← takeId flags.kind rest
      let (route, rest) ← takeRoute table flags rest
      let payload ← readPayload flags rest
      return ⟨flags.kind, id, route, payload, flags.isError, flags.isCompressed⟩

end RoutedSession.Message
