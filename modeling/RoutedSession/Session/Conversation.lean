import RoutedSession.Session.Call

/-!
A client and its peer at the two ends of a stream, on a clock that moves only when it is told to.
The client consists of tasks, each of which goes on until it has to wait.
-/

namespace RoutedSession

/-- The far end of the stream. -/
structure Peer where
  /-- Bytes that are still to be put into the stream. -/
  outgoing : Bytes := []
  /-- Whether the stream to the client ends behind them. -/
  isEnding : Bool := false
  /-- Whether it has stopped to read. -/
  isStalled : Bool := false
  /-- What it has read since the last look, the newest first. -/
  received : List Bytes := []
  /-- Whether it has seen the end of what the client sends. -/
  sawEnd : Bool := false
  /-- The codes that it uses. -/
  routes : RouteTable := .empty

/-- How far the client has come. -/
inductive Stage where
  /-- It has not begun to connect. -/
  | unconnected (settings : Settings)
  | connecting (settings : Settings) (attempt : Attempt)
  /-- It could not connect, or the attempt was given up. -/
  | failed (lifecycle : Lifecycle) (routes : RouteTable)
  | connected (connection : Connection)

/-- A call that runs in the background. -/
structure Call where
  slot : String
  state : CallState
  /-- Whether its end has been told. -/
  isTold : Bool := false

/-- A client and its peer. -/
structure Conversation where
  now : Nat := 0
  link : Link
  peer : Peer := {}
  stage : Stage
  /-- The calls in the order in which they were started. The first one opens the connection. -/
  calls : List Call
  /-- The waiting sides of answers that have been kept, by name, in the order in which they came. -/
  kept : List (String × PendingAnswer) := []
  /-- The pushes with which the callback was called since the last look, the newest first. -/
  pushed : List Message := []

/-- What can go on by itself at the client's end. -/
inductive Task where
  | call (index : SenderId)
  | writer
  | reader
  | callback
  deriving DecidableEq, Repr

namespace Conversation

/-- A client that is about to connect. -/
def start (settings : Settings) (capacity : Nat) (fault : Fault) : Conversation where
  link := .ofCapacity capacity fault
  stage := .unconnected settings
  calls := [{ slot := "connect", state := .connecting }]

def connection? (conversation : Conversation) : Option Connection :=
  match conversation.stage with
  | .connected connection => some connection
  | _ => none

/-- How far the connection has come. -/
def lifecycle (conversation : Conversation) : Lifecycle :=
  match conversation.stage with
  | .unconnected _ => .disconnected
  | .connecting _ _ => .handshakeSent
  | .failed lifecycle _ => lifecycle
  | .connected connection => connection.session.lifecycle

/-- The client's codes for routes. -/
def routes (conversation : Conversation) : RouteTable :=
  match conversation.stage with
  | .unconnected settings | .connecting settings _ => settings.routes
  | .failed _ routes => routes
  | .connected connection => connection.session.routes

def setConnection (conversation : Conversation) (connection : Connection) : Conversation :=
  { conversation with stage := .connected connection }

def setCall (conversation : Conversation) (index : SenderId) (state : CallState) : Conversation :=
  { conversation with calls := conversation.calls.modify index ({ · with state }) }

/-- The first answer that is kept under a name is kept no longer. -/
def unkeep (conversation : Conversation) (slot : String) : Conversation :=
  { conversation with kept := conversation.kept.eraseP (·.1 == slot) }

/-- Gives up the first answer that is kept under a name, if there is one. Says whether there is. -/
def dropKept (conversation : Conversation) (slot : String) : Bool × Conversation :=
  match conversation.kept.lookup slot, conversation.connection? with
  | some answer, some connection =>
      (true, (conversation.unkeep slot).setConnection (connection.dropAnswer answer))
  | _, _ => (false, conversation)

/-- Keeps the waiting side of an answer, behind any others of that name. -/
def keep (conversation : Conversation) (slot : String) (answer : PendingAnswer) : Conversation :=
  { conversation with kept := conversation.kept ++ [(slot, answer)] }

/-- Sets how far a call has come, and keeps the waiting side of the answer that it may yield. -/
def settleCall (conversation : Conversation) (index : SenderId) (call : Call) (state : CallState) :
    Conversation :=
  let conversation := conversation.setCall index state
  match state with
  | .ended (.requested answer) => conversation.keep call.slot answer
  | _ => conversation

/-- Begins the exchange that opens the connection. Its time begins now. -/
def beginAttempt (conversation : Conversation) (settings : Settings) : Conversation :=
  { conversation with
    stage := .connecting settings
      { request := settings.request
        limit := settings.maxPacketSize
        timeout := settings.handshakeTimeout
        deadline := conversation.now + settings.handshakeTimeout } }

/-- What follows when the exchange that opens the connection has succeeded. If the queues of the
session do not fit, the call ends there and the stream is given up. The codes of the server have
been added by then. -/
def connect (conversation : Conversation) (settings : Settings) (accepted : Accepted)
    (index : SenderId) : Conversation :=
  if settings.queuesFit then
    { conversation with stage := .connected (.establish settings accepted) }.setCall index
      (.ended (.connected accepted.response))
  else
    let routes := settings.routesWith accepted.response.server
    { conversation with
      link := conversation.link.drop
      stage := .failed .handshakeSent routes }.setCall index (.ended .aborted)

/-- Lets the exchange that opens the connection go on. If it fails the stream is given up. -/
def pollAttempt (conversation : Conversation) (settings : Settings) (attempt : Attempt)
    (index : SenderId) : Conversation :=
  match attempt.poll conversation.now conversation.link with
  | (.waiting phase, link) =>
      { conversation with link, stage := .connecting settings { attempt with phase } }
  | (.failed reason, link) =>
      { conversation with link := link.drop, stage := .failed .closed settings.routes }.setCall
        index (.ended (.failed reason))
  | (.accepted accepted, link) => { conversation with link }.connect settings accepted index

/-- Whether a task would do anything if it were let go on. -/
def isReady (conversation : Conversation) : Task → Bool
  | .call index =>
      match conversation.calls[index]?, conversation.stage with
      | some call, .connected connection =>
          connection.callReady conversation.now index call.state
      | some ⟨_, .connecting, _⟩, .unconnected _ => true
      | some ⟨_, .connecting, _⟩, .connecting _ attempt =>
          attempt.isReady conversation.now conversation.link
      | _, _ => false
  | .writer => conversation.connection?.any (·.writerReady conversation.link)
  | .reader => conversation.connection?.any (·.readerReady conversation.link)
  | .callback => conversation.connection?.any (·.session.events.callsBack)

/-- Lets a call go on. -/
def pollCall (conversation : Conversation) (index : SenderId) : Conversation :=
  match conversation.calls[index]?, conversation.stage with
  | some call, .connected connection =>
      let (state, connection) := connection.pollCall conversation.now index call.state
      (conversation.setConnection connection).settleCall index call state
  | some ⟨_, .connecting, _⟩, .unconnected settings => conversation.beginAttempt settings
  | some ⟨_, .connecting, _⟩, .connecting settings attempt =>
      conversation.pollAttempt settings attempt index
  | _, _ => conversation

/-- Lets the callback have the events that are there. -/
def pollCallback (conversation : Conversation) (connection : Connection) : Conversation :=
  let (messages, events) := connection.session.events.callBack
  { conversation with pushed := messages.reverse ++ conversation.pushed }.setConnection
    { connection with session := { connection.session with events } }

/-- Lets a task go on as far as it can. -/
def poll (conversation : Conversation) (task : Task) : Conversation :=
  match task, conversation.connection? with
  | .call index, _ => conversation.pollCall index
  | .writer, some connection =>
      let (connection, link) := connection.pollWriter conversation.link
      { conversation with link }.setConnection connection
  | .reader, some connection =>
      let (connection, link) := connection.pollReader conversation.link
      { conversation with link }.setConnection connection
  | .callback, some connection => conversation.pollCallback connection
  | _, none => conversation

/-- The tasks in the order in which they take their turns. -/
def tasks (conversation : Conversation) : List Task :=
  (List.range conversation.calls.length).map .call ++ [.writer, .reader, .callback]

/-- Lets each task have a turn, if it would do anything then. -/
def turn (conversation : Conversation) : Conversation :=
  conversation.tasks.foldl
    (fun conversation task => if conversation.isReady task then conversation.poll task
      else conversation) conversation

/-- Whether any task would do anything. -/
def isBusy (conversation : Conversation) : Bool :=
  conversation.tasks.any conversation.isReady

/-- Lets the tasks take turns until all of them wait, or so many turns are over. -/
def takeTurns : (turns : Nat) → Conversation → Conversation
  | 0, conversation => conversation
  | turns + 1, conversation =>
      if conversation.isBusy then takeTurns turns conversation.turn else conversation

/-- Lets the tasks take turns until all of them wait. A call ends after a few turns, and without the
peer's help the reader and the writer wait or end after a few more, unless a turn of theirs was over
before they had to wait. In such a turn they moved a byte at least. -/
def run (conversation : Conversation) : Conversation :=
  let { link, calls, .. } := conversation
  takeTurns (8 * calls.length + 16 + link.toPeer.room + link.toClient.held.size) conversation

/-- Whether the peer could put anything into the stream. -/
def peerCanWrite (conversation : Conversation) : Bool :=
  let { link, peer, .. } := conversation
  if link.isDropped then !peer.outgoing.isEmpty
  else if peer.outgoing.isEmpty then peer.isEnding && !link.toClient.isClosed
  else 0 < link.toClient.room

/-- The peer puts into the stream what it has and there is room for. Once the client has given up
the stream, what is left is lost. -/
def peerWrites (conversation : Conversation) : Conversation :=
  let { link, peer, .. } := conversation
  if link.isDropped then { conversation with peer := { peer with outgoing := [] } }
  else
    let room := link.toClient.room
    let toClient := link.toClient.put (peer.outgoing.take room)
    let outgoing := peer.outgoing.drop room
    { conversation with
      link :=
        { link with
          toClient := if outgoing.isEmpty && peer.isEnding then toClient.close else toClient }
      peer := { peer with outgoing } }

/-- The peer reads up to `limit` bytes, unless it has stopped to read. -/
def peerReads (conversation : Conversation) (limit : Nat) : Conversation :=
  let { link, peer, .. } := conversation
  if peer.isStalled then conversation
  else
    let (bytes, toPeer) := link.toPeer.take limit
    { conversation with
      link := { link with toPeer }
      peer :=
        { peer with
          received := if bytes.isEmpty then peer.received else bytes :: peer.received
          sawEnd := toPeer.isClosed && toPeer.held.size = 0 } }

def peerReadsAll (conversation : Conversation) : Conversation :=
  conversation.peerReads conversation.link.toPeer.held.size

/-- Lets the peer write, the tasks run and the peer read, in turn, until nothing moves, or so many
rounds are over. -/
def rounds : (count : Nat) → Conversation → Conversation
  | 0, conversation => conversation
  | count + 1, conversation =>
      let conversation := conversation.peerWrites.run.peerReadsAll
      if conversation.peerCanWrite || conversation.isBusy then rounds count conversation
      else conversation

/-- More rounds than can follow on each other without anything from outside: every one moves a byte
of those that are there, or of the replies to them. -/
def budget (conversation : Conversation) : Nat :=
  let { link, peer, calls, .. } := conversation
  let toClient := peer.outgoing.length + link.toClient.held.size
  let frames :=
    match conversation.stage with
    | .unconnected settings | .connecting settings _ => settings.request.text.length
    | .failed _ _ => 0
    | .connected connection =>
        let left :=
          match connection.writer with
          | .writing left _ => Writer.total left
          | _ => 0
        connection.session.outbox.frames.foldl (fun size frame => size + frame.size) left
  let unsent (call : Call) :=
    match call.state with
    | .starting (.sendRequest route payload) | .starting (.request route payload _)
    | .starting (.notify route payload) => route.utf8ByteSize + payload.length
    | .starting (.requestJson route value) => route.utf8ByteSize + value.print.length
    | .sendingRequest frame _ _ | .sendingNotify frame => frame.size
    | _ => 0
  let waiting := calls.foldl (fun size call => size + unsent call) 0
  frames + waiting + 16 * (toClient + calls.length + 4)

/-- Lets everything go on until nothing moves. -/
def settle (conversation : Conversation) : Conversation :=
  rounds conversation.budget conversation

end Conversation

end RoutedSession
