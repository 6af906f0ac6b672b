import RoutedSession.Packet.Buffer
import RoutedSession.Session.Basic
import RoutedSession.Session.Link

namespace RoutedSession

/-- What the reader is doing. -/
inductive Reader where
  /-- It has packets that arrived together with the server's answer, and has not begun to read. -/
  | starting (packets : List Packet) (buffer : PacketBuffer)
  | reading (buffer : PacketBuffer)
  | ended

namespace Reader

/-- The most bytes that are read at once. -/
def chunk : Nat := 65536

/-- Whether the reader would do anything if it were let go on. -/
def isReady (session : Session) (link : Link) : Reader → Bool
  | .starting _ _ => true
  | .reading _ => session.outbox.stopped || link.toClient.isReadable
  | .ended => false

/-- A reader together with the session and the stream that it works on. -/
structure Work where
  reader : Reader
  session : Session
  link : Link

/-- The session ends, and its user is told the reason, which is the first that was given. No event
follows. -/
def finish (session : Session) (link : Link) (reason : CloseReason) : Work :=
  let session := session.terminate reason
  let told := session.reason.getD reason
  { reader := .ended
    session := { session with events := (session.events.offer (.disconnected told)).close }
    link }

/-- Reads as long as there is anything to read and the turn is not over. Every read is cut into
packets as a whole before the first of them takes effect. The shutdown is seen before each read. -/
def readOn (share : Nat) (session : Session) (link : Link) (buffer : PacketBuffer) : Work :=
  match share with
  | 0 => ⟨.reading buffer, session, link⟩
  | share + 1 =>
      if session.outbox.stopped then finish session link .byClient
      else
        match _hfound : link.read chunk with
        | (.blocked, link) => ⟨.reading buffer, session, link⟩
        | (.ended, link) => finish session link .byPeer
        | (.failed reason, link) => finish session link (.failed (.stream reason))
        | (.got bytes, rest) =>
            match buffer.push bytes with
            | (.error reason, _) => finish session rest (.failed (.framing reason))
            | (.ok packets, buffer) =>
                match session.dispatchAll packets with
                | (session, some reason) => finish session rest reason
                | (session, none) => readOn share session rest buffer
termination_by link.toClient.held.size
decreasing_by exact Link.read_got_lt (by decide) _hfound

/-- Lets the reader go on as far as it can in one turn. -/
def poll (work : Work) : Work :=
  match work.reader with
  | .ended => work
  | .reading buffer => readOn transfersPerTurn work.session work.link buffer
  | .starting packets buffer =>
      match work.session.dispatchAll packets with
      | (session, some reason) => finish session work.link reason
      | (session, none) => readOn transfersPerTurn session work.link buffer

end Reader

end RoutedSession
