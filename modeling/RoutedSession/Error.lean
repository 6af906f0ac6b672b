import RoutedSession.Handshake.Answer
import RoutedSession.Message.Codec
import RoutedSession.Packet.Basic

namespace RoutedSession

/-- How a stream of bytes fails. -/
inductive StreamError where
  /-- The stream itself reports a failure. -/
  | failed (text : String)
  /-- A write was offered bytes and took none. -/
  | tookNothing (text : String)
  deriving DecidableEq, Repr

/-- The text shown for a failed stream. -/
def StreamError.message : StreamError → String
  | failed text | tookNothing text => text

/-- Why a call on a session fails. -/
inductive SessionError where
  | stream (reason : StreamError)
  | json (reason : Json.ReadError)
  | framing (reason : FramingError)
  | decode (reason : DecodeError)
  | handshake (reason : HandshakeError)
  | routeTooLong (reason : Message.RouteTooLong)
  /-- No slot is free in the queue of outgoing packets. -/
  | queueFull
  /-- The session has ended. -/
  | closed
  /-- No answer came in time. -/
  | requestTimeout (id : UInt32)
  deriving DecidableEq, Repr

/-- The text shown for an error. -/
def SessionError.message : SessionError → String
  | stream reason => "I/O error: " ++ reason.message
  | json _ => "JSON error"
  | framing reason => "Framing error: " ++ reason.message
  | decode reason => "Decode error: " ++ reason.message
  | handshake reason => "Handshake error: " ++ reason.message
  | routeTooLong reason => reason.message
  | queueFull => "Send queue full"
  | closed => "Session closed"
  | requestTimeout id => s!"Request {id} timed out"

end RoutedSession
