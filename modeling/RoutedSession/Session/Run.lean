import RoutedSession.Session.Command

/-!
What can happen to a conversation, one thing at a time and in any order. The orderly way in which
`settle` lets everything go on is one of those orders (`reaches_settle`), and so is a command
together with all that follows from it (`reaches_step`).
-/

namespace RoutedSession.Conversation

/-- One thing happens: something from outside, a turn of a task that has something to do, or a move
of the peer. -/
inductive Step : Conversation → Conversation → Prop where
  | command (before : Conversation) (command : Command) :
      Step before (before.perform command).2
  | task (before : Conversation) (task : Task) (hready : before.isReady task = true) :
      Step before (before.poll task)
  | peerWrites (before : Conversation) : Step before before.peerWrites
  | peerReads (before : Conversation) (limit : Nat) : Step before (before.peerReads limit)

/-- Any number of things happen, in any order. -/
inductive Reaches (first : Conversation) : Conversation → Prop where
  | refl : Reaches first first
  | step {middle last : Conversation} (hreached : Reaches first middle) (hnext : Step middle last) :
      Reaches first last

theorem Reaches.trans {first middle last : Conversation} (hfront : Reaches first middle)
    (hback : Reaches middle last) : Reaches first last := by
  induction hback with
  | refl => exact hfront
  | step _ hnext ih => exact ih.step hnext

theorem Reaches.single {first last : Conversation} (hnext : Step first last) :
    Reaches first last :=
  Reaches.refl.step hnext

/-- A conversation that something can lead to from the start. -/
def Reachable (conversation : Conversation) : Prop :=
  ∃ settings capacity fault, Reaches (start settings capacity fault) conversation

theorem reaches_turns (tasks : List Task) (conversation : Conversation) :
    Reaches conversation (tasks.foldl (fun conversation task =>
      if conversation.isReady task then conversation.poll task else conversation)
      conversation) := by
  induction tasks generalizing conversation with
  | nil => exact .refl
  | cons task rest ih =>
      simp only [List.foldl_cons]
      split
      · rename_i hready
        exact (Reaches.single (.task conversation task hready)).trans (ih _)
      · exact ih _

theorem reaches_takeTurns (turns : Nat) (conversation : Conversation) :
    Reaches conversation (conversation.takeTurns turns) := by
  induction turns generalizing conversation with
  | zero => exact .refl
  | succ turns ih =>
      unfold takeTurns
      split
      · exact (reaches_turns conversation.tasks conversation).trans (ih _)
      · exact .refl

theorem reaches_run (conversation : Conversation) : Reaches conversation conversation.run :=
  reaches_takeTurns _ conversation

theorem reaches_round (conversation : Conversation) :
    Reaches conversation conversation.peerWrites.run.peerReadsAll :=
  ((Reaches.single (.peerWrites conversation)).trans (reaches_run _)).step (.peerReads _ _)

theorem reaches_rounds (count : Nat) (conversation : Conversation) :
    Reaches conversation (conversation.rounds count) := by
  induction count generalizing conversation with
  | zero => exact .refl
  | succ count ih =>
      unfold rounds
      dsimp only
      split
      · exact (reaches_round conversation).trans (ih _)
      · exact reaches_round conversation

/-- Letting everything go on is a run. -/
theorem reaches_settle (conversation : Conversation) :
    Reaches conversation conversation.settle :=
  reaches_rounds _ conversation

theorem reaches_step (conversation : Conversation) (command : Command) :
    Reaches conversation (conversation.step command).2 :=
  (Reaches.single (.command conversation command)).trans (reaches_settle _)

end RoutedSession.Conversation
