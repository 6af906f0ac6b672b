import RoutedSession.Bytes

namespace RoutedSession

/-- What a packet is for. -/
inductive PacketKind where
  /-- The client's offer and the server's answer that open a connection. -/
  | handshake
  /-- The client's confirmation of the server's answer. -/
  | handshakeAck
  /-- A sign of life. -/
  | heartbeat
  /-- Carries a message. -/
  | data
  /-- The server ends the connection. -/
  | kick
  deriving DecidableEq, Repr

namespace PacketKind

/-- The byte that stands for a kind. -/
def code : PacketKind → UInt8
  | handshake => 1
  | handshakeAck => 2
  | heartbeat => 3
  | data => 4
  | kick => 5

/-- The kind that a byte stands for. -/
def ofCode? : UInt8 → Option PacketKind
  | 1 => some handshake
  | 2 => some handshakeAck
  | 3 => some heartbeat
  | 4 => some data
  | 5 => some kick
  | _ => none

def name : PacketKind → String
  | handshake => "Handshake"
  | handshakeAck => "HandshakeAck"
  | heartbeat => "Heartbeat"
  | data => "Data"
  | kick => "Kick"

@[simp] theorem ofCode?_code (kind : PacketKind) : ofCode? kind.code = some kind := by
  cases kind <;> rfl

end PacketKind

/-- Why bytes cannot be cut into packets, or a packet cannot be written. -/
inductive FramingError where
  /-- No kind has this code. -/
  | unknownKind (code : UInt8)
  /-- The payload is longer than the limit in force. -/
  | tooLarge (size limit : Nat)
  deriving DecidableEq, Repr

def FramingError.message : FramingError → String
  | unknownKind code => s!"unknown packet kind: 0x{Bytes.hexByte code}"
  | tooLarge size limit => s!"packet payload size {size} exceeds maximum {limit}"

/-- What a header says about the packet behind it. -/
structure Header where
  kind : PacketKind
  length : Nat
  deriving DecidableEq, Repr

namespace Header

/-- The number of bytes of a header. -/
def size : Nat := 4

/-- The largest length that fits the header's 24 bits. -/
def maxLength : Nat := Nat.pow 2 24 - 1

def bytes (header : Header) : Bytes :=
  header.kind.code :: Bytes.ofNatBE 3 header.length

/-- The four bytes of a header, unless the length does not fit. -/
def encode (header : Header) : Except FramingError Bytes :=
  if header.length ≤ maxLength then .ok header.bytes
  else .error (.tooLarge header.length maxLength)

/-- The header at the start of the bytes and the bytes after it, if four bytes are there. The kind
is judged before the length. -/
def parse? (limit : Nat) : Bytes → Except FramingError (Option (Header × Bytes))
  | code :: high :: middle :: low :: rest =>
      match PacketKind.ofCode? code with
      | none => .error (.unknownKind code)
      | some kind =>
          let length := Bytes.toNatBE [high, middle, low]
          if length ≤ limit then .ok (some (⟨kind, length⟩, rest))
          else .error (.tooLarge length limit)
  | _ => .ok none

theorem length_of_parse? {limit : Nat} {bytes rest : Bytes} {header : Header}
    (hparsed : parse? limit bytes = .ok (some (header, rest))) :
    bytes.length = rest.length + size := by
  unfold parse? at hparsed
  split at hparsed
  · split at hparsed
    · simp at hparsed
    · dsimp only at hparsed
      split at hparsed
      · simp only [Except.ok.injEq, Option.some.injEq, Prod.mk.injEq] at hparsed
        simp [← hparsed.2, size]
      · simp at hparsed
  · simp at hparsed

end Header

/-- A kind together with its payload. -/
structure Packet where
  kind : PacketKind
  payload : Bytes
  deriving DecidableEq, Repr

namespace Packet

/-- The longest payload that is accepted unless a smaller limit is set. -/
def defaultLimit : Nat := Nat.pow 2 24

/-- The header in front of a packet's payload. -/
def header (packet : Packet) : Header :=
  ⟨packet.kind, packet.payload.length⟩

def bytes (packet : Packet) : Bytes :=
  packet.header.bytes ++ packet.payload

/-- The bytes of a packet, unless its payload is too long. -/
def encode (packet : Packet) : Except FramingError Bytes :=
  packet.header.encode.map (· ++ packet.payload)

/-- The complete packets at the start of the bytes, and the bytes after them. -/
def decodeAll (bytes : Bytes) : Except FramingError (List Packet × Bytes) :=
  match _parsed : Header.parse? defaultLimit bytes with
  | .error e => .error e
  | .ok none => .ok ([], bytes)
  | .ok (some (header, rest)) =>
      if Bytes.hasAtLeast header.length rest then
        match decodeAll (rest.drop header.length) with
        | .error e => .error e
        | .ok (packets, left) => .ok (⟨header.kind, rest.take header.length⟩ :: packets, left)
      else .ok ([], bytes)
termination_by bytes.length
decreasing_by
  have := Header.length_of_parse? _parsed
  simp only [List.length_drop, Header.size] at *
  omega

end Packet

end RoutedSession
