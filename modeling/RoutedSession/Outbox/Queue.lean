import RoutedSession.Error
import RoutedSession.Outbox.Frame

/-!
The queue of outgoing frames. It has a fixed number of slots. A sender that finds none free waits; a
slot that becomes free goes to the sender that has waited longest, which fills it when it next
looks. Once the queue is stopped, no sender waits any longer and none succeeds.
-/

namespace RoutedSession

/-- Who sends. -/
abbrev SenderId := Nat

/-- The frames that wait to be written, and the senders that wait for a slot. -/
structure Outbox where
  capacity : Nat
  frames : List Frame := []
  /-- The senders without a slot, in the order in which they came. -/
  waiting : List SenderId := []
  /-- The senders that have been given a slot and have not filled it. -/
  granted : List SenderId := []
  /-- Whether anybody may still take frames out. -/
  receiving : Bool := true
  /-- Whether the shutdown has been signalled. -/
  stopped : Bool := false
  deriving Repr

namespace Outbox

/-- An open queue. It has at least one slot. -/
def ofCapacity (capacity : Nat) : Outbox :=
  { capacity := max capacity 1 }

/-- The number of slots that are filled or given to a sender. -/
def used (outbox : Outbox) : Nat :=
  outbox.frames.length + outbox.granted.length

/-- Whether no slot is free. -/
def isFull (outbox : Outbox) : Bool :=
  outbox.capacity ≤ outbox.used

/-- Gives a slot that has become free to the sender that has waited longest. -/
def grantNext (outbox : Outbox) : Outbox :=
  match outbox.waiting with
  | [] => outbox
  | sender :: waiting => { outbox with waiting, granted := sender :: outbox.granted }

/-- The frame is put behind all others. -/
def append (outbox : Outbox) (frame : Frame) : Outbox :=
  { outbox with frames := outbox.frames ++ [frame] }

/-- How an attempt to send ends. -/
inductive Sent where
  | done
  | waiting
  | failed (reason : SessionError)
  deriving Repr

def send (outbox : Outbox) (sender : SenderId) (frame : Frame) : Sent × Outbox :=
  if outbox.stopped || !outbox.receiving then (.failed .closed, outbox)
  else if outbox.isFull then (.waiting, { outbox with waiting := outbox.waiting ++ [sender] })
  else (.done, outbox.append frame)

/-- A sender that waits goes away. A slot that it was given goes to the next one. -/
def leave (outbox : Outbox) (sender : SenderId) : Outbox :=
  if outbox.granted.contains sender then
    { outbox with granted := outbox.granted.erase sender }.grantNext
  else { outbox with waiting := outbox.waiting.erase sender }

/-- A sender that waits looks again. -/
def resume (outbox : Outbox) (sender : SenderId) (frame : Frame) : Sent × Outbox :=
  if outbox.stopped then (.failed .closed, outbox.leave sender)
  else if !outbox.receiving then (.failed .closed, outbox)
  else if outbox.granted.contains sender then
    (.done, { outbox with granted := outbox.granted.erase sender }.append frame)
  else (.waiting, outbox)

/-- Whether a sender that waits would not go on waiting if it looked again. -/
def canResume (outbox : Outbox) (sender : SenderId) : Bool :=
  outbox.stopped || !outbox.receiving || outbox.granted.contains sender

/-- Sends a frame only if a slot is free. -/
def trySend (outbox : Outbox) (frame : Frame) : Except SessionError Unit × Outbox :=
  if outbox.stopped || !outbox.receiving then (.error .closed, outbox)
  else if outbox.isFull then (.error .queueFull, outbox)
  else (.ok (), outbox.append frame)

/-- Takes up to `limit` frames off the front. Every slot that becomes free is given away at once. -/
def takeUpTo (outbox : Outbox) : (limit : Nat) → List Frame × Outbox
  | 0 => ([], outbox)
  | limit + 1 =>
      match outbox.frames with
      | [] => ([], outbox)
      | frame :: frames =>
          let (more, rest) := takeUpTo { outbox with frames }.grantNext limit
          (frame :: more, rest)

/-- Nobody takes frames out any more. Those that are left are dropped. -/
def endReceiving (outbox : Outbox) : Outbox :=
  { outbox with frames := [], waiting := [], granted := [], receiving := false }

/-- Signals the shutdown. -/
def stop (outbox : Outbox) : Outbox :=
  { outbox with stopped := true }

@[simp] theorem frames_grantNext (outbox : Outbox) : outbox.grantNext.frames = outbox.frames := by
  unfold grantNext
  split <;> rfl

theorem frames_takeUpTo (outbox : Outbox) (limit : Nat) :
    outbox.frames = (outbox.takeUpTo limit).1 ++ (outbox.takeUpTo limit).2.frames := by
  induction limit generalizing outbox with
  | zero => simp [takeUpTo]
  | succ limit ih =>
      unfold takeUpTo
      split
      · rename_i hnone
        simp [hnone]
      · rename_i frame frames hsome
        have hrest := ih { outbox with frames }.grantNext
        rw [frames_grantNext] at hrest
        simp only [hsome, List.cons_append, List.cons.injEq, true_and]
        exact hrest

end Outbox

end RoutedSession
