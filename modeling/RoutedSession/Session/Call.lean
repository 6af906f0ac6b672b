import RoutedSession.Session.Connection

namespace RoutedSession

/-- What a call is to do. -/
inductive CallAction where
  /-- Sends a request and keeps the waiting side of its answer. -/
  | sendRequest (route : String) (payload : Bytes)
  /-- Sends a request and awaits the answer, at most for so many milliseconds. -/
  | request (route : String) (payload : Bytes) (timeout : Option Nat)
  /-- Sends a JSON value as a request, and awaits an answer that is to be one too. -/
  | requestJson (route : String) (value : Json)
  | notify (route : String) (payload : Bytes)
  /-- Ends the session and awaits the ends of its parts. -/
  | close
  /-- Awaits the end of the session. -/
  | awaitEnd

/-- What is done with the answer to a request that is sent. -/
inductive AnswerUse where
  /-- Its waiting side is kept. -/
  | keep
  /-- It is awaited, at most for so many milliseconds, and read as JSON if `asJson` is set. -/
  | await (timeout : Option Nat) (asJson : Bool)

/-- What a call comes to. -/
inductive CallResult where
  | connected (response : HandshakeResponse)
  | requested (answer : PendingAnswer)
  | answered (message : Message)
  | answeredJson (message : Message) (value : Except SessionError Json)
  | notified
  | closed
  | failed (reason : SessionError)
  /-- It was given up. -/
  | aborted

/-- How far a call has come. -/
inductive CallState where
  /-- The exchange that opens the connection. -/
  | connecting
  | starting (action : CallAction)
  /-- A request looks for an id, and every id is in use. It never goes on. -/
  | searching
  /-- A request waits for a slot in the queue. -/
  | sendingRequest (frame : Frame) (answer : PendingAnswer) (use : AnswerUse)
  /-- A notify waits for a slot in the queue. -/
  | sendingNotify (frame : Frame)
  | awaitingAnswer (answer : PendingAnswer) (deadline : Option Nat) (asJson : Bool)
  /-- Another call awaits the ends of the parts. -/
  | locking
  | joining (parts : List SessionPart)
  | awaitingEnd
  | ended (result : CallResult)

namespace CallState

def hasEnded : CallState → Bool
  | ended _ => true
  | _ => false

end CallState

namespace Connection

def setPending (connection : Connection) (pending : PendingTable) : Connection :=
  { connection with session := { connection.session with pending } }

def setOutbox (connection : Connection) (outbox : Outbox) : Connection :=
  { connection with session := { connection.session with outbox } }

/-- Gives up the waiting side of an answer. -/
def dropAnswer (connection : Connection) (answer : PendingAnswer) : Connection :=
  connection.setPending (answer.drop connection.session.pending)

def answerResult (asJson : Bool) : Outcome → CallResult
  | .error reason => .failed reason
  | .ok message =>
      if asJson then .answeredJson message ((Json.parse message.payload).mapError .json)
      else .answered message

/-- Looks for an answer, and gives it up if it is not there when its time is over. -/
def pollAnswer (connection : Connection) (now : Nat) (answer : PendingAnswer)
    (deadline : Option Nat) (asJson : Bool) : CallState × Connection :=
  match answer.poll connection.session.pending with
  | (some outcome, pending) =>
      (.ended (answerResult asJson outcome), connection.setPending pending)
  | (none, _) =>
      if deadline.any (· ≤ now) then
        (.ended (.failed (.requestTimeout answer.id)), connection.dropAnswer answer)
      else (.awaitingAnswer answer deadline asJson, connection)

/-- A request whose frame was offered to the queue. Its time begins when the frame is in the
queue. -/
def afterRequest (connection : Connection) (now : Nat) (frame : Frame) (answer : PendingAnswer)
    (use : AnswerUse) : Outbox.Sent × Outbox → CallState × Connection
  | (.waiting, outbox) => (.sendingRequest frame answer use, connection.setOutbox outbox)
  | (.failed reason, outbox) =>
      (.ended (.failed reason), (connection.setOutbox outbox).dropAnswer answer)
  | (.done, outbox) =>
      match use with
      | .keep => (.ended (.requested answer), connection.setOutbox outbox)
      | .await timeout asJson =>
          (connection.setOutbox outbox).pollAnswer now answer (timeout.map (now + ·)) asJson

/-- Begins a request: it is registered, written down and offered to the queue. -/
def beginRequest (connection : Connection) (now : Nat) (index : SenderId) (route : String)
    (payload : Bytes) (use : AnswerUse) : CallState × Connection :=
  match connection.session.pending.register with
  | none =>
      (if connection.session.pending.closed then .ended (.failed .closed) else .searching,
        connection)
  | some ((id, ticket), pending) =>
      let answer : PendingAnswer := ⟨id, ticket⟩
      let connection := connection.setPending pending
      match Session.frame connection.session.routes { kind := .request, id, route, payload } with
      | .error reason => (.ended (.failed reason), connection.dropAnswer answer)
      | .ok frame =>
          connection.afterRequest now frame answer use
            (connection.session.outbox.send index frame)

def notifyFrame (connection : Connection) (route : String) (payload : Bytes) :
    Except SessionError Frame :=
  Session.frame connection.session.routes { kind := .notify, route, payload }

/-- A notify whose frame was offered to the queue. -/
def afterNotify (connection : Connection) (frame : Frame) :
    Outbox.Sent × Outbox → CallState × Connection
  | (.waiting, outbox) => (.sendingNotify frame, connection.setOutbox outbox)
  | (.failed reason, outbox) => (.ended (.failed reason), connection.setOutbox outbox)
  | (.done, outbox) => (.ended .notified, connection.setOutbox outbox)

def beginNotify (connection : Connection) (index : SenderId) (route : String) (payload : Bytes) :
    CallState × Connection :=
  match connection.notifyFrame route payload with
  | .error reason => (.ended (.failed reason), connection)
  | .ok frame => connection.afterNotify frame (connection.session.outbox.send index frame)

/-- Sends a notify only if a slot is free. -/
def tryNotify (connection : Connection) (route : String) (payload : Bytes) :
    Except SessionError Unit × Connection :=
  match connection.notifyFrame route payload with
  | .error reason => (.error reason, connection)
  | .ok frame =>
      let (result, outbox) := connection.session.outbox.trySend frame
      (result, connection.setOutbox outbox)

/-- Awaits the ends of parts in turn. -/
def pollJoin (connection : Connection) : List SessionPart → CallState × Connection
  | [] => (.ended .closed, connection.unlock)
  | part :: rest =>
      if connection.hasEnded part then connection.pollJoin rest
      else (.joining (part :: rest), connection)

/-- A call that has the lock awaits the ends of the parts that nobody else has begun to await. -/
def beginJoin (connection : Connection) : CallState × Connection :=
  { connection with unjoined := [] }.pollJoin connection.unjoined

/-- Ends the session and asks for the lock. -/
def beginClose (connection : Connection) (index : SenderId) : CallState × Connection :=
  let connection :=
    { connection with session := connection.session.terminate .byClient }
  match connection.joining with
  | none => { connection with joining := some index }.beginJoin
  | some _ => (.locking, { connection with joinQueue := connection.joinQueue ++ [index] })

def pollEnd (connection : Connection) : CallState × Connection :=
  (if connection.session.outbox.stopped then .ended .closed else .awaitingEnd, connection)

def beginCall (connection : Connection) (now : Nat) (index : SenderId) :
    CallAction → CallState × Connection
  | .sendRequest route payload => connection.beginRequest now index route payload .keep
  | .request route payload timeout =>
      connection.beginRequest now index route payload (.await timeout false)
  | .requestJson route value =>
      connection.beginRequest now index route value.print (.await none true)
  | .notify route payload => connection.beginNotify index route payload
  | .close => connection.beginClose index
  | .awaitEnd => connection.pollEnd

/-- Whether a call would do anything if it were let go on. -/
def callReady (connection : Connection) (now : Nat) (index : SenderId) : CallState → Bool
  | .starting _ => true
  | .sendingRequest _ _ _ | .sendingNotify _ => connection.session.outbox.canResume index
  | .awaitingAnswer answer deadline _ =>
      deadline.any (· ≤ now) ||
        match connection.session.pending.standing answer.ticket with
        | .waiting => false
        | _ => true
  | .locking => connection.joining == some index
  | .joining parts => parts.head?.all connection.hasEnded
  | .awaitingEnd => connection.session.outbox.stopped
  | .connecting | .searching | .ended _ => false

/-- Lets a call go on as far as it can. -/
def pollCall (connection : Connection) (now : Nat) (index : SenderId) (state : CallState) :
    CallState × Connection :=
  match state with
  | .starting action => connection.beginCall now index action
  | .sendingRequest frame answer use =>
      connection.afterRequest now frame answer use
        (connection.session.outbox.resume index frame)
  | .sendingNotify frame =>
      connection.afterNotify frame (connection.session.outbox.resume index frame)
  | .awaitingAnswer answer deadline asJson => connection.pollAnswer now answer deadline asJson
  | .locking =>
      if connection.joining = some index then connection.beginJoin else (state, connection)
  | .joining parts => connection.pollJoin parts
  | .awaitingEnd => connection.pollEnd
  | .connecting | .searching | .ended _ => (state, connection)

/-- Gives a call up where it waits. What it had asked for goes to others. -/
def abortCall (connection : Connection) (index : SenderId) : CallState → Connection
  | .sendingRequest _ answer _ =>
      (connection.setOutbox (connection.session.outbox.leave index)).dropAnswer answer
  | .sendingNotify _ => connection.setOutbox (connection.session.outbox.leave index)
  | .awaitingAnswer answer _ _ => connection.dropAnswer answer
  | .locking =>
      if connection.joining = some index then connection.unlock
      else { connection with joinQueue := connection.joinQueue.erase index }
  | .joining _ => connection.unlock
  | .connecting | .starting _ | .searching | .awaitingEnd | .ended _ => connection

end Connection

end RoutedSession
