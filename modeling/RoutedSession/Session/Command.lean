import RoutedSession.Session.Conversation

namespace RoutedSession

/-- What an application does with a session. -/
inductive SessionCommand where
  /-- Starts a call in the background. -/
  | call (slot : String) (action : CallAction)
  | tryNotify (route : String) (payload : Bytes)
  /-- Asks for the receiving end of the events. -/
  | takeEvents
  /-- Lets a function be called with every push. -/
  | setCallback
  | inspect
  | lookUpCode (route : String)
  | lookUpRoute (code : RouteCode)
  | register (route : String) (code : RouteCode)
  | extend (pairs : List (String × RouteCode))
  | clear
  | drop

/-- What is done to a conversation from outside. -/
inductive Command where
  /-- The peer sends bytes, and ends its side behind them if `isLast` is set. -/
  | peerSends (bytes : Bytes) (isLast : Bool)
  | peerEnds
  | peerRegisters (route : String) (code : RouteCode)
  | peerStalls
  | peerResumes
  | setFault (fault : Fault)
  | advance (milliseconds : Nat)
  /-- Looks once whether the first answer that is kept under a name is there. -/
  | pollKept (slot : String)
  | dropKept (slot : String)
  /-- Gives up a call. -/
  | abort (slot : String)
  /-- Takes events that are there, at most so many. -/
  | receive (limit : Option Nat)
  | dropEvents
  /-- Asks for the pushes with which the callback was called since the last time. -/
  | takePushed
  | onSession (command : SessionCommand)

/-- What a command answers at once. -/
inductive Reply where
  | nothing
  | flag (value : Bool)
  /-- What an answer that is kept has come to, if it has come to anything. -/
  | polled (id : UInt32) (outcome : Option Outcome)
  /-- No answer is kept under that name. -/
  | notKept
  /-- Events, and whether they are known to be the last ones. -/
  | events (events : List Event) (isOver : Bool)
  /-- The application does not have the events. -/
  | notTaken
  | pushed (messages : List Message)
  | sent (result : Except SessionError Unit)
  | info (lifecycle : Lifecycle) (response : HandshakeResponse) (routes : Nat)
  | code (code : Option RouteCode)
  | route (route : Option String)
  | callsRunning
  | dropped
  | noSession

/-- What there is to see of a conversation. -/
structure Report where
  /-- What the peer has read since the last report. -/
  sent : Bytes
  /-- Whether the peer has seen the end of what the client sends. -/
  sawEnd : Bool
  lifecycle : Lifecycle
  /-- The number of pending requests and the reason for the end, while there is a session. -/
  session : Option (Nat × Option CloseReason)
  /-- The calls that have ended since the last report. -/
  news : List (String × CallResult)

namespace Conversation

def session? (conversation : Conversation) : Option Connection :=
  conversation.connection?.filter (·.isHeld)

/-- Changes what the peer is doing. -/
def setPeer (conversation : Conversation) (change : Peer → Peer) : Conversation :=
  { conversation with peer := change conversation.peer }

def setEvents (conversation : Conversation) (connection : Connection) (events : EventChannel) :
    Conversation :=
  conversation.setConnection
    { connection with session := { connection.session with events } }

/-- The peer has more to send. After its end nothing is sent any more. -/
def peerSends (conversation : Conversation) (bytes : Bytes) (isLast : Bool) : Conversation :=
  if conversation.peer.isEnding then conversation
  else
    conversation.setPeer fun peer =>
      { peer with outgoing := peer.outgoing ++ bytes, isEnding := isLast }

/-- Looks once whether the first answer that is kept under a name is there. -/
def pollKept (conversation : Conversation) (slot : String) : Reply × Conversation :=
  match conversation.kept.lookup slot, conversation.connection? with
  | some answer, some connection =>
      match answer.poll connection.session.pending with
      | (none, _) => (.polled answer.id none, conversation)
      | (some outcome, pending) =>
          (.polled answer.id (some outcome),
            (conversation.unkeep slot).setConnection (connection.setPending pending))
  | _, _ => (.notKept, conversation)

/-- Gives up the first running call of a name, if there is one. -/
def abort (conversation : Conversation) (slot : String) : Bool × Conversation :=
  match conversation.calls.findIdx? fun call => call.slot == slot && !call.state.hasEnded with
  | none => (false, conversation)
  | some index =>
      let aborted := conversation.setCall index (.ended .aborted)
      match conversation.calls[index]?, conversation.stage with
      | some call, .connected connection =>
          (true, aborted.setConnection (connection.abortCall index call.state))
      | _, .unconnected settings | _, .connecting settings _ =>
          (true,
            { aborted with
              link := conversation.link.drop
              stage := .failed conversation.lifecycle settings.routes })
      | _, _ => (true, aborted)

/-- Takes events that are there. -/
def receive (conversation : Conversation) (limit : Option Nat) : Reply × Conversation :=
  match conversation.connection? with
  | none => (.notTaken, conversation)
  | some connection =>
      let channel := connection.session.events
      if channel.receiver = .user then
        let limit := limit.getD (channel.held.length + 1)
        let (events, rest) := channel.take limit
        (.events events (rest.isClosed && events.length < limit),
          conversation.setEvents connection rest)
      else (.notTaken, conversation)

/-- Gives up the receiving end of the events, if the application has it. -/
def dropEvents (conversation : Conversation) : Bool × Conversation :=
  match conversation.connection? with
  | none => (false, conversation)
  | some connection =>
      if connection.session.events.receiver = .user then
        (true, conversation.setEvents connection connection.session.events.dropReceiver)
      else (false, conversation)

/-- Gives the receiving end of the events away, if the session still has it. -/
def giveEvents (conversation : Conversation) (connection : Connection) (receiver : EventReceiver) :
    Reply × Conversation :=
  let (given, events) := connection.session.events.giveTo receiver
  (.flag given, conversation.setEvents connection events)

/-- Gives the session up, unless a call on it is running. -/
def dropSession (conversation : Conversation) (connection : Connection) : Reply × Conversation :=
  if conversation.calls.any (!·.state.hasEnded) then (.callsRunning, conversation)
  else (.dropped, conversation.setConnection connection.dropSession)

/-- Changes which codes routes have. -/
def callRoutes (conversation : Conversation) (connection : Connection) (call : RouteCall) :
    Conversation :=
  conversation.setConnection
    { connection with
      session := { connection.session with routes := connection.session.routes.call call } }

def performOn (conversation : Conversation) (connection : Connection) :
    SessionCommand → Reply × Conversation
  | .call slot action =>
      (.nothing,
        { conversation with
          calls := conversation.calls ++ [{ slot, state := .starting action }] })
  | .tryNotify route payload =>
      let (result, connection) := connection.tryNotify route payload
      (.sent result, conversation.setConnection connection)
  | .takeEvents => conversation.giveEvents connection .user
  | .setCallback => conversation.giveEvents connection .callback
  | .inspect =>
      (.info connection.session.lifecycle connection.response connection.session.routes.size,
        conversation)
  | .lookUpCode route => (.code (connection.session.routes.code? route), conversation)
  | .lookUpRoute code => (.route (connection.session.routes.route? code), conversation)
  | .register route code => (.nothing, conversation.callRoutes connection (.register route code))
  | .extend pairs => (.nothing, conversation.callRoutes connection (.extend pairs))
  | .clear => (.nothing, conversation.callRoutes connection .clear)
  | .drop => conversation.dropSession connection

/-- What a command does before anything goes on by itself. -/
def perform (conversation : Conversation) (command : Command) : Reply × Conversation :=
  match command with
  | .peerSends bytes isLast => (.nothing, conversation.peerSends bytes isLast)
  | .peerEnds => (.nothing, conversation.setPeer ({ · with isEnding := true }))
  | .peerRegisters route code =>
      (.nothing,
        conversation.setPeer fun peer => { peer with routes := peer.routes.register route code })
  | .peerStalls => (.nothing, conversation.setPeer ({ · with isStalled := true }))
  | .peerResumes => (.nothing, conversation.setPeer ({ · with isStalled := false }))
  | .setFault fault => (.nothing, { conversation with link := { conversation.link with fault } })
  | .advance milliseconds =>
      (.nothing, { conversation with now := conversation.now + milliseconds })
  | .pollKept slot => conversation.pollKept slot
  | .dropKept slot =>
      let (found, conversation) := conversation.dropKept slot
      (.flag found, conversation)
  | .abort slot =>
      let (found, conversation) := conversation.abort slot
      (.flag found, conversation)
  | .receive limit => conversation.receive limit
  | .dropEvents =>
      let (found, conversation) := conversation.dropEvents
      (.flag found, conversation)
  | .takePushed => (.pushed conversation.pushed.reverse, { conversation with pushed := [] })
  | .onSession command =>
      match conversation.session? with
      | none => (.noSession, conversation)
      | some connection => conversation.performOn connection command

def step (conversation : Conversation) (command : Command) : Reply × Conversation :=
  let (reply, conversation) := conversation.perform command
  (reply, conversation.settle)

/-- The calls that have ended since the last report. -/
def news (conversation : Conversation) : List (String × CallResult) :=
  conversation.calls.filterMap fun call =>
    match call.state with
    | .ended result => if call.isTold then none else some (call.slot, result)
    | _ => none

/-- What there is to see. -/
def report (conversation : Conversation) : Report where
  sent := conversation.peer.received.reverse.flatten
  sawEnd := conversation.peer.sawEnd
  lifecycle := conversation.lifecycle
  session := conversation.session?.map fun connection =>
    (connection.session.pending.size, connection.session.reason)
  news := conversation.news

/-- The conversation after a report. -/
def forget (conversation : Conversation) : Conversation :=
  { conversation with
    calls := conversation.calls.map fun call => { call with isTold := call.state.hasEnded }
    peer := { conversation.peer with received := [] } }

end Conversation

namespace Peer

def messageBytes (peer : Peer) (message : Message) : Except SessionError Bytes :=
  (Session.frame peer.routes message).map Frame.bytes

end Peer

end RoutedSession
