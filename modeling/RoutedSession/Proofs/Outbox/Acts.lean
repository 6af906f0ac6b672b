import Mathlib.Logic.Relation
import RoutedSession.Proofs.Outbox.Queue

/-!
All that a writer does in a turn, as single acts: it takes a batch, calls its stream or stops. What
every act keeps, every turn keeps.
-/

namespace RoutedSession.Writer

open Relation (ReflTransGen)

variable {σ : Type}

/-- An act of a writer that takes at most `most` frames at a time. -/
inductive Act (sink : Sink σ) (most : Nat) (hasSenders : Bool) : Work σ → Work σ → Prop where
  | takes {outbox rest : Outbox} {frame : Frame} {batch : List Frame} (stream : σ)
      (htaken : outbox.takeUpTo most = (frame :: batch, rest)) :
      Act sink most hasSenders ⟨.idle, outbox, stream⟩
        ⟨.writing (Slices.ofFrames (frame :: batch)) false, rest, stream⟩
  | writes {left : List Bytes} {count : Nat} {stream after : σ} (isBlocked : Bool) (outbox : Outbox)
      (htook : sink.write stream left = (.took (count + 1), after)) :
      Act sink most hasSenders ⟨.writing left isBlocked, outbox, stream⟩
        ⟨.writing (Slices.drop (count + 1) left) false, outbox, after⟩
  | blocks {left : List Bytes} {stream after : σ} (isBlocked : Bool) (outbox : Outbox)
      (hblocked : sink.write stream left = (.blocked, after)) :
      Act sink most hasSenders ⟨.writing left isBlocked, outbox, stream⟩
        ⟨.writing left true, outbox, after⟩
  /-- The turn is over before the stream blocks again. -/
  | pauses (left : List Bytes) (isBlocked : Bool) (outbox : Outbox) (stream : σ) :
      Act sink most hasSenders ⟨.writing left isBlocked, outbox, stream⟩
        ⟨.writing left false, outbox, stream⟩
  | flushes {left : List Bytes} {stream after : σ} (isBlocked : Bool) (outbox : Outbox)
      (hnone : hasBytes left = false) (hflushed : sink.flush stream = (.done, after)) :
      Act sink most hasSenders ⟨.writing left isBlocked, outbox, stream⟩ ⟨.idle, outbox, after⟩
  | flushBlocks {left : List Bytes} {stream after : σ} (isBlocked : Bool) (outbox : Outbox)
      (hnone : hasBytes left = false) (hblocked : sink.flush stream = (.blocked, after)) :
      Act sink most hasSenders ⟨.writing left isBlocked, outbox, stream⟩
        ⟨.writing left true, outbox, after⟩
  | writeFails {left : List Bytes} {stream after : σ} {reason : StreamError} (isBlocked : Bool)
      (outbox : Outbox) (hfailed : sink.write stream left = (.failed reason, after)) :
      Act sink most hasSenders ⟨.writing left isBlocked, outbox, stream⟩
        ⟨.ended (.error (.stream reason)), outbox.endReceiving, after⟩
  | takesNothing {left : List Bytes} {stream after : σ} (isBlocked : Bool) (outbox : Outbox)
      (htook : sink.write stream left = (.took 0, after)) :
      Act sink most hasSenders ⟨.writing left isBlocked, outbox, stream⟩
        ⟨.ended (.error (.stream (.tookNothing "write_vectored returned 0"))),
          outbox.endReceiving, after⟩
  | flushFails {left : List Bytes} {stream after : σ} {reason : StreamError} (isBlocked : Bool)
      (outbox : Outbox) (hnone : hasBytes left = false)
      (hfailed : sink.flush stream = (.failed reason, after)) :
      Act sink most hasSenders ⟨.writing left isBlocked, outbox, stream⟩
        ⟨.ended (.error (.stream reason)), outbox.endReceiving, after⟩
  /-- The shutdown is signalled, the queue is empty and nobody is left who can send, or an earlier
  attempt has blocked. -/
  | stops {work : Work σ} (hgoing : work.writer.hasEnded = false)
      (hwhy : work.outbox.stopped = true ∨ work.writer = .closing ∨
        work.writer = .idle ∧ work.outbox.frames = [] ∧ hasSenders = false) :
      Act sink most hasSenders work (stop sink work)

variable {sink : Sink σ} {hasSenders : Bool}

/-- An attempt to end the stream leaves the writer to try again, or is its last act. -/
theorem stop_cases (sink : Sink σ) (work : Work σ) :
    (∃ after, sink.shutdown work.stream = (.blocked, after) ∧
        stop sink work = ⟨.closing, work.outbox, after⟩) ∨
      ∃ result after, result ≠ .blocked ∧ sink.shutdown work.stream = (result, after) ∧
        stop sink work = ⟨.ended (.ok ()), work.outbox.endReceiving, after⟩ := by
  unfold stop
  rcases hresult : sink.shutdown work.stream with ⟨result, after⟩
  cases result with
  | blocked => exact .inl ⟨after, rfl, rfl⟩
  | done => exact .inr ⟨.done, after, nofun, rfl, rfl⟩
  | failed reason => exact .inr ⟨.failed reason, after, nofun, rfl, rfl⟩

theorem stream_stop (sink : Sink σ) (work : Work σ) :
    (stop sink work).stream = (sink.shutdown work.stream).2 := by
  unfold stop
  rcases sink.shutdown work.stream with ⟨result, after⟩
  cases result <;> rfl

theorem stop_ne_failed (sink : Sink σ) (work : Work σ) (reason : SessionError) :
    (stop sink work).writer ≠ .ended (.error reason) := by
  rcases stop_cases sink work with ⟨after, -, hstop⟩ | ⟨result, after, -, -, hstop⟩
  · rw [hstop]
    exact nofun
  · rw [hstop]
    exact nofun

theorem outbox_stop (sink : Sink σ) (work : Work σ) :
    (stop sink work).outbox = work.outbox ∨
      (stop sink work).outbox = work.outbox.endReceiving := by
  rcases stop_cases sink work with ⟨after, -, hstop⟩ | ⟨result, after, -, -, hstop⟩
  · exact .inl (by rw [hstop])
  · exact .inr (by rw [hstop])

theorem acts_writeBatch {most : Nat} (isBlocked : Bool) (outbox : Outbox) (share : Nat) (stream : σ)
    (left : List Bytes) :
    ReflTransGen (Act sink most hasSenders) ⟨.writing left isBlocked, outbox, stream⟩
      ((afterWrite outbox (writeBatch sink share stream left)).elim id
        fun next => ⟨.idle, outbox, next.2⟩) := by
  unfold writeBatch
  fun_induction writeOut sink "write_vectored returned 0" share stream left
    generalizing isBlocked with
  | case1 _ _ _ _ _ hblocked => exact .single (.blocks isBlocked outbox hblocked)
  | case2 _ _ _ _ _ _ hfailed => exact .single (.writeFails isBlocked outbox hfailed)
  | case3 _ _ _ _ _ htook => exact .single (.takesNothing isBlocked outbox htook)
  | case4 => exact .single (.pauses _ _ _ _)
  | case5 _ _ _ _ _ _ htook _ ih => exact (ih false).head (.writes isBlocked outbox htook)
  | case6 _ _ _ hnone _ hflushed =>
      rw [Bool.not_eq_true] at hnone
      exact .single (.flushes isBlocked outbox hnone hflushed)
  | case7 _ _ _ hnone _ hblocked =>
      rw [Bool.not_eq_true] at hnone
      exact .single (.flushBlocks isBlocked outbox hnone hblocked)
  | case8 _ _ _ hnone _ _ hfailed =>
      rw [Bool.not_eq_true] at hnone
      exact .single (.flushFails isBlocked outbox hnone hfailed)

theorem acts_writeBatches (limit share : Nat) (outbox : Outbox) (stream : σ) :
    ReflTransGen (Act sink (limit + 1) hasSenders) ⟨.idle, outbox, stream⟩
      (writeBatches sink limit hasSenders share outbox stream) := by
  fun_induction writeBatches sink limit hasSenders share outbox stream with
  | case1 => exact .refl
  | case2 outbox stream _ rest htaken hsenders =>
      obtain ⟨-, rfl⟩ := Outbox.frames_eq_nil_of_takeUpTo htaken
      exact .refl
  | case3 outbox stream _ rest htaken hsenders =>
      obtain ⟨hempty, rfl⟩ := Outbox.frames_eq_nil_of_takeUpTo htaken
      rw [Bool.not_eq_true] at hsenders
      exact .single (.stops rfl (.inr (.inr ⟨rfl, hempty, hsenders⟩)))
  | case4 outbox stream frame batch rest htaken => exact .single (.takes stream htaken)
  | case5 outbox stream share frame batch rest htaken slices _ work hafter =>
      have hwritten := @acts_writeBatch σ sink hasSenders (limit + 1) false rest share stream slices
      rw [hafter] at hwritten
      exact hwritten.head (.takes stream htaken)
  | case6 outbox stream share frame batch rest htaken slices _ left after hafter ih =>
      have hwritten := @acts_writeBatch σ sink hasSenders (limit + 1) false rest share stream slices
      rw [hafter] at hwritten
      exact (hwritten.head (.takes stream htaken)).trans ih

/-- A turn of a writer is made of acts. -/
theorem acts_poll (maxBatch : Nat) (work : Work σ) :
    ReflTransGen (Act sink (maxBatch - 1 + 1) hasSenders) work
      (poll sink maxBatch hasSenders work) := by
  obtain ⟨writer, outbox, stream⟩ := work
  cases writer with
  | ended result => exact .refl
  | unable => exact .refl
  | closing => exact .single (.stops rfl (.inr (.inl rfl)))
  | idle =>
      unfold poll
      dsimp only
      split
      · rename_i hstopped
        exact .single (.stops rfl (.inl hstopped))
      · exact acts_writeBatches _ _ _ _
  | writing left isBlocked =>
      unfold poll
      dsimp only
      split
      · rename_i hstopped
        exact .single (.stops rfl (.inl hstopped))
      · have hwritten := @acts_writeBatch σ sink hasSenders (maxBatch - 1 + 1) isBlocked outbox
          transfersPerTurn stream left
        split
        · rename_i work hafter
          rwa [hafter] at hwritten
        · rename_i share after hafter
          rw [hafter] at hwritten
          exact hwritten.trans (acts_writeBatches _ _ _ _)

theorem poll_of_acts {P : Work σ → Prop} {maxBatch : Nat} {work : Work σ}
    (hact : ∀ before after, Act sink (maxBatch - 1 + 1) hasSenders before after → P before →
      P after) (hbefore : P work) : P (poll sink maxBatch hasSenders work) := by
  have hacts := @acts_poll σ sink hasSenders maxBatch work
  generalize poll sink maxBatch hasSenders work = last at hacts ⊢
  induction hacts with
  | refl => exact hbefore
  | tail _ hlast ih => exact hact _ _ hlast ih

theorem outbox_poll {P : Outbox → Prop} (sink : Sink σ)
    (htake : ∀ outbox limit, P outbox → P (outbox.takeUpTo limit).2)
    (hend : ∀ outbox, P outbox → P outbox.endReceiving) (maxBatch : Nat) (hasSenders : Bool)
    (work : Work σ) (hbefore : P work.outbox) : P (poll sink maxBatch hasSenders work).outbox := by
  refine poll_of_acts (P := fun work => P work.outbox) ?_ hbefore
  intro before after hact hkept
  cases hact with
  | takes stream htaken =>
      have hrest := htake _ (maxBatch - 1 + 1) hkept
      rwa [htaken] at hrest
  | writeFails => exact hend _ hkept
  | takesNothing => exact hend _ hkept
  | flushFails => exact hend _ hkept
  | stops =>
      rcases outbox_stop sink before with hsame | hgone
      · rwa [hsame]
      · rw [hgone]
        exact hend _ hkept
  | _ => exact hkept

end RoutedSession.Writer
