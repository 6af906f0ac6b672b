import RoutedSession.Gzip.Member
import RoutedSession.Handshake.Records
import RoutedSession.Packet.Basic

namespace RoutedSession

/-- Why the exchange that opens a connection failed. -/
inductive HandshakeError where
  /-- The server ended the connection before it answered. -/
  | closedEarly
  /-- The server began with a packet of another kind. -/
  | unexpectedPacket (kind : PacketKind)
  /-- The answer is compressed, and cannot be decompressed. -/
  | inflate (reason : GzipError)
  /-- The answer is no JSON text of the right form. -/
  | malformed (reason : Json.ReadError)
  /-- The server refused with this code. -/
  | rejected (code : UInt16)
  /-- The exchange took longer than these milliseconds. -/
  | noAnswer (limit : Nat)
  deriving DecidableEq, Repr

/-- The digits of a fraction of a second given in thousandths, with the point before them and
without zeros at the end. -/
def thousandths (n : Nat) : String :=
  let digits := [n / 100, n / 10 % 10, n % 10]
  let kept := (digits.reverse.dropWhile (· == 0)).reverse
  if kept.isEmpty then "" else "." ++ String.ofList (kept.map Nat.digitChar)

/-- A length of time given in milliseconds, in the largest unit that does not make it less than
one. -/
def durationText (milliseconds : Nat) : String :=
  if milliseconds = 0 then "0ns"
  else if milliseconds < 1000 then s!"{milliseconds}ms"
  else toString (milliseconds / 1000) ++ thousandths (milliseconds % 1000) ++ "s"

/-- The text shown for a failed exchange. -/
def HandshakeError.message : HandshakeError → String
  | closedEarly => "connection closed during handshake"
  | unexpectedPacket kind => s!"first packet from server is {kind.name}, not a handshake"
  | inflate reason => "failed to inflate payload: " ++ reason.message
  | malformed _ => "malformed payload: JSON error"
  | rejected code => s!"server rejected handshake with code {code}"
  | noAnswer limit => "no answer within " ++ durationText limit

namespace HandshakeResponse

/-- The text of an answer, which may have been compressed. -/
def plainText (payload : Bytes) : Except HandshakeError Bytes :=
  if Gzip.isCompressed payload then (Gzip.decompress payload).mapError .inflate
  else .ok payload

/-- The answer in a payload, if it accepts the offer. -/
def parse (payload : Bytes) : Except HandshakeError HandshakeResponse := do
  let text ← plainText payload
  let response ← (ofText text).mapError .malformed
  if response.code = accepted then return response else .error (.rejected response.code)

end HandshakeResponse

end RoutedSession
