import RoutedSession.Error

namespace RoutedSession

/-- Why a session ended. -/
inductive CloseReason where
  /-- The client ended it. -/
  | byClient
  /-- The server sent a kick. -/
  | kicked
  /-- The server ended its side of the stream. -/
  | byPeer
  | failed (error : SessionError)
  deriving DecidableEq, Repr

/-- What a session tells its user. -/
inductive Event where
  /-- A message that is no answer. -/
  | push (message : Message)
  /-- The session has ended. -/
  | disconnected (reason : CloseReason)
  deriving DecidableEq, Repr

/-- Who has the receiving end of an event channel. -/
inductive EventReceiver where
  /-- The session, as long as nobody asks for it. -/
  | session
  /-- The user, who takes events one by one. -/
  | user
  /-- A function that is called with every push. -/
  | callback
  | dropped
  deriving DecidableEq, Repr

/-- Events on their way to the user. -/
structure EventChannel where
  capacity : Nat
  held : List Event := []
  /-- No event will be put in any more. -/
  isClosed : Bool := false
  receiver : EventReceiver := .session
  deriving Repr

namespace EventChannel

/-- An open channel. It has room for at least one event. -/
def ofCapacity (capacity : Nat) : EventChannel :=
  { capacity := max capacity 1 }

/-- Puts an event in if there is room and somebody may still receive it. -/
def offer (channel : EventChannel) (event : Event) : EventChannel :=
  if channel.receiver ≠ .dropped ∧ channel.held.length < channel.capacity then
    { channel with held := channel.held ++ [event] }
  else channel

/-- Puts nothing in any more. -/
def close (channel : EventChannel) : EventChannel :=
  { channel with isClosed := true }

/-- Gives the receiving end away, if the session still has it. -/
def giveTo (channel : EventChannel) (receiver : EventReceiver) : Bool × EventChannel :=
  if channel.receiver = .session then (true, { channel with receiver }) else (false, channel)

/-- The receiving end goes away, and all that is held with it. -/
def dropReceiver (channel : EventChannel) : EventChannel :=
  { channel with held := [], receiver := .dropped }

/-- Takes out up to `limit` events. -/
def take (channel : EventChannel) (limit : Nat) : List Event × EventChannel :=
  (channel.held.take limit, { channel with held := channel.held.drop limit })

/-- The pushes before the first event that is none, and whether there is such an event. -/
def pushes : List Event → List Message × Bool
  | [] => ([], false)
  | .push message :: rest =>
      let (more, ends) := pushes rest
      (message :: more, ends)
  | .disconnected _ :: _ => ([], true)

/-- Whether a function that is called with every push has anything to do. -/
def callsBack (channel : EventChannel) : Bool :=
  channel.receiver == .callback && (!channel.held.isEmpty || channel.isClosed)

/-- Calls the function with every push held. It is given up at the end of the session. -/
def callBack (channel : EventChannel) : List Message × EventChannel :=
  let (messages, ends) := pushes channel.held
  (messages,
    if ends || channel.isClosed then channel.dropReceiver else { channel with held := [] })

end EventChannel

end RoutedSession
