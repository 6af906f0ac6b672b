import RoutedSession.Session.Attempt
import RoutedSession.Session.Inbound

namespace RoutedSession

/-- The order in which the pairs of a map come out. -/
structure MapOrder where
  arrange : List (String × RouteCode) → List (String × RouteCode) := id
  perm : ∀ pairs, (arrange pairs).Perm pairs := by exact List.Perm.refl

/-- What an application chooses before it connects, and the order of maps, which nobody chooses. -/
structure Settings where
  request : HandshakeRequest := {}
  /-- The number of slots for outgoing frames. -/
  queueCapacity : Nat := 128
  /-- The most frames that are written together. -/
  maxBatch : Nat := 64
  eventCapacity : Nat := 256
  /-- The longest payload that is accepted. -/
  maxPacketSize : Nat := Packet.defaultLimit
  /-- How many milliseconds the exchange with the server may take. -/
  handshakeTimeout : Nat := 10000
  routes : RouteTable := .empty
  mapOrder : MapOrder := {}

/-- The codes of the application, to which those of the server have been added. -/
def Settings.routesWith (settings : Settings) (server : ServerInfo) : RouteTable :=
  settings.routes.extend (settings.mapOrder.arrange server.routes)

/-- The largest number of slots that a queue can have. -/
def maxSlots : Nat := Nat.pow 2 61 - 1

/-- Whether the queues of a session can be as long as they are chosen to be. -/
def Settings.queuesFit (settings : Settings) : Bool :=
  settings.queueCapacity ≤ maxSlots && settings.eventCapacity ≤ maxSlots

/-- The parts of a session that run on their own. -/
inductive SessionPart where
  | writer
  | reader
  deriving DecidableEq, Repr

/-- A session that has been connected. -/
structure Connection where
  session : Session
  response : HandshakeResponse
  writer : Writer
  reader : Reader
  maxBatch : Nat
  /-- The parts whose ends nobody has begun to await. -/
  unjoined : List SessionPart := [.writer, .reader]
  /-- The call that may await the ends of the parts. -/
  joining : Option SenderId := none
  /-- The calls that will be allowed to, in the order in which they came. -/
  joinQueue : List SenderId := []
  /-- Whether the application still has the session. -/
  isHeld : Bool := true

namespace Connection

/-- The session that an accepted offer leads to. The server's codes are added to the table. If the
writer cannot begin, the session stands all the same, but nothing can be sent in it. -/
def establish (settings : Settings) (accepted : Accepted) : Connection :=
  let maxBatch := max settings.maxBatch 1
  let (writer, outbox) := Writer.start maxBatch (.ofCapacity settings.queueCapacity)
  { session :=
      { lifecycle := .connected
        routes := settings.routesWith accepted.response.server
        outbox
        events := .ofCapacity settings.eventCapacity }
    response := accepted.response
    writer
    reader := .starting accepted.trailing accepted.buffer
    maxBatch }

def hasEnded (connection : Connection) : SessionPart → Bool
  | .writer => connection.writer.hasEnded
  | .reader =>
      match connection.reader with
      | .ended => true
      | _ => false

/-- The stream is given up once neither the reader nor the writer needs it. -/
def release (connection : Connection) (link : Link) : Connection × Link :=
  (connection,
    if connection.hasEnded .writer && connection.hasEnded .reader then link.drop else link)

/-- Whether the writer would do anything if it were let go on. -/
def writerReady (connection : Connection) (link : Link) : Bool :=
  connection.writer.isReady connection.session.outbox true link.goesOn

/-- Lets the writer go on. If it fails the session ends. -/
def pollWriter (connection : Connection) (link : Link) : Connection × Link :=
  let work := Writer.poll Link.sink connection.maxBatch true
    ⟨connection.writer, connection.session.outbox, link⟩
  let session := { connection.session with outbox := work.outbox }
  let session :=
    match work.writer with
    | .ended (.error reason) => session.terminate (.failed reason)
    | _ => session
  release { connection with writer := work.writer, session } work.stream

/-- Whether the reader would do anything if it were let go on. -/
def readerReady (connection : Connection) (link : Link) : Bool :=
  connection.reader.isReady connection.session link

/-- Lets the reader go on. -/
def pollReader (connection : Connection) (link : Link) : Connection × Link :=
  let work := Reader.poll ⟨connection.reader, connection.session, link⟩
  release { connection with reader := work.reader, session := work.session } work.link

/-- The application gives the session up, which ends it. Events that nobody has asked for are
lost. -/
def dropSession (connection : Connection) : Connection :=
  let session := connection.session.terminate .byClient
  let events :=
    if session.events.receiver = .session then session.events.dropReceiver else session.events
  { connection with session := { session with events }, isHeld := false }

/-- The lock goes to the call that has waited longest. -/
def unlock (connection : Connection) : Connection :=
  match connection.joinQueue with
  | [] => { connection with joining := none }
  | next :: joinQueue => { connection with joining := some next, joinQueue }

end Connection

end RoutedSession
