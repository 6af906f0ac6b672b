import RoutedSession.Outbox.Queue
import RoutedSession.Pending
import RoutedSession.Session.Events

namespace RoutedSession

/-- How far a connection has come. -/
inductive Lifecycle where
  | disconnected
  /-- The offer is being sent, or an answer to it is awaited. -/
  | handshakeSent
  | connected
  | closed
  deriving DecidableEq, Repr

/-- What the parts of a session share. -/
structure Session where
  lifecycle : Lifecycle
  routes : RouteTable
  pending : PendingTable := {}
  outbox : Outbox
  events : EventChannel
  /-- Why the session ended, once it has. -/
  reason : Option CloseReason := none

namespace Session

/-- Ends the session, unless it has ended before: no frame is sent and no request added any more,
and every pending request fails. -/
def terminate (session : Session) (reason : CloseReason) : Session :=
  match session.reason with
  | some _ => session
  | none =>
      { session with
        reason := some reason
        outbox := session.outbox.stop
        pending := session.pending.close.2
        lifecycle := .closed }

def frame (routes : RouteTable) (message : Message) : Except SessionError Frame :=
  match message.encode routes with
  | .error reason => .error (.routeTooLong reason)
  | .ok bytes => (Frame.ofPacket ⟨.data, bytes⟩).mapError .framing

def heartbeatReply : Message :=
  { kind := .notify, route := "sys.heartbeat", payload := [0x7b, 0x7d] }

/-- Replies to a heartbeat. If the queue has no free slot, or takes no frames any more, the reply is
left out. -/
def answerHeartbeat (session : Session) : Except SessionError Session :=
  match frame session.routes heartbeatReply with
  | .error reason => .error reason
  | .ok reply =>
      match session.outbox.trySend reply with
      | (.ok (), outbox) | (.error .queueFull, outbox) | (.error .closed, outbox) =>
          .ok { session with outbox }
      | (.error reason, _) => .error reason

/-- Hands an answer to the request it is for, and every other message to the user. -/
def deliver (session : Session) (message : Message) : Session :=
  if message.kind = .response then { session with pending := (session.pending.resolve message).2 }
  else { session with events := session.events.offer (.push message) }

/-- What a packet does. The reason is there if the session has to end. -/
def dispatch (session : Session) (packet : Packet) : Session × Option CloseReason :=
  match packet.kind with
  | .heartbeat =>
      match session.answerHeartbeat with
      | .error reason => (session, some (.failed reason))
      | .ok session => (session, none)
  | .data =>
      match Message.decode session.routes packet.payload with
      | .error reason => (session, some (.failed (.decode reason)))
      | .ok message => (session.deliver message, none)
  | .kick => (session, some .kicked)
  | .handshake | .handshakeAck => (session, none)

/-- What packets do, up to the first one for which the session has to end. -/
def dispatchAll (session : Session) : List Packet → Session × Option CloseReason
  | [] => (session, none)
  | packet :: rest =>
      match session.dispatch packet with
      | (session, some reason) => (session, some reason)
      | (session, none) => dispatchAll session rest

end Session

end RoutedSession
