import RoutedSession.Outbox.Writer

namespace RoutedSession

/-- A call that a writer has made to its stream, and what came of it. -/
inductive StreamCall where
  | write (offered : List Bytes) (result : Written)
  | flush (result : Completion)
  | shutdown (result : Completion)

namespace StreamCall

def taken : StreamCall → Bytes
  | write offered (.took count) => offered.flatten.take count
  | _ => []

/-- The result with which a writer ends that has made the call, if it ends. -/
def ending? : StreamCall → Option (Except SessionError Unit)
  | write _ (.failed reason) | flush (.failed reason) => some (.error (.stream reason))
  | write _ (.took 0) => some (.error (.stream (.tookNothing "write_vectored returned 0")))
  | write _ (.took (_ + 1)) | write _ .blocked | flush .done | flush .blocked => none
  | shutdown .blocked => none
  | shutdown .done | shutdown (.failed _) => some (.ok ())

theorem taken_of_ending {call : StreamCall} {result : Except SessionError Unit}
    (hending : call.ending? = some result) : call.taken = [] := by
  unfold ending? at hending
  split at hending <;> simp_all [taken]

end StreamCall

/-- A stream and the calls that have been made to it, the oldest first. -/
structure Recorded (σ : Type) where
  stream : σ
  calls : List StreamCall := []

namespace Recorded

variable {σ : Type}

def note (before : Recorded σ) (call : StreamCall) (after : σ) : Recorded σ :=
  ⟨after, before.calls ++ [call]⟩

def taken (recorded : Recorded σ) : Bytes :=
  recorded.calls.flatMap StreamCall.taken

end Recorded

/-- The same stream with a record of the calls. -/
def Sink.recorded {σ : Type} (sink : Sink σ) : Sink (Recorded σ) where
  write before slices :=
    let (result, after) := sink.write before.stream slices
    (result, before.note (.write slices result) after)
  flush before :=
    let (result, after) := sink.flush before.stream
    (result, before.note (.flush result) after)
  shutdown before :=
    let (result, after) := sink.shutdown before.stream
    (result, before.note (.shutdown result) after)
  cost := sink.cost

theorem Sink.write_of_recorded {σ : Type} {sink : Sink σ} {before after : Recorded σ}
    {slices : List Bytes} {result : Written}
    (hresult : sink.recorded.write before slices = (result, after)) :
    sink.write before.stream slices = (result, after.stream) ∧
      after.calls = before.calls ++ [.write slices result] := by
  obtain ⟨rfl, rfl⟩ := Prod.mk.inj hresult
  exact ⟨rfl, rfl⟩

theorem Sink.flush_of_recorded {σ : Type} {sink : Sink σ} {before after : Recorded σ}
    {result : Completion} (hresult : sink.recorded.flush before = (result, after)) :
    sink.flush before.stream = (result, after.stream) ∧
      after.calls = before.calls ++ [.flush result] := by
  obtain ⟨rfl, rfl⟩ := Prod.mk.inj hresult
  exact ⟨rfl, rfl⟩

theorem Sink.shutdown_of_recorded {σ : Type} {sink : Sink σ} {before after : Recorded σ}
    {result : Completion} (hresult : sink.recorded.shutdown before = (result, after)) :
    sink.shutdown before.stream = (result, after.stream) ∧
      after.calls = before.calls ++ [.shutdown result] := by
  obtain ⟨rfl, rfl⟩ := Prod.mk.inj hresult
  exact ⟨rfl, rfl⟩

namespace Writer

variable {σ : Type}

def Work.plain (work : Work (Recorded σ)) : Work σ :=
  ⟨work.writer, work.outbox, work.stream.stream⟩

theorem writeOut_recorded (sink : Sink σ) (nothing : String) (share : Nat) (before : Recorded σ)
    (slices : List Bytes) :
    (writeOut sink.recorded nothing share before slices).map id Recorded.stream =
      writeOut sink nothing share before.stream slices := by
  fun_induction writeOut sink.recorded nothing share before slices with
  | case1 _ _ _ hsome _ hresult =>
      rw [writeOut, dif_pos hsome, (Sink.write_of_recorded hresult).1]
      rfl
  | case2 _ _ _ hsome _ _ hresult =>
      rw [writeOut, dif_pos hsome, (Sink.write_of_recorded hresult).1]
      rfl
  | case3 _ _ _ hsome _ hresult =>
      rw [writeOut, dif_pos hsome, (Sink.write_of_recorded hresult).1]
      rfl
  | case4 _ _ _ hsome _ _ hresult hshare =>
      rw [writeOut, dif_pos hsome, (Sink.write_of_recorded hresult).1]
      exact (if_pos hshare).symm
  | case5 _ _ _ hsome _ _ hresult hshare ih =>
      refine ih.trans (Eq.symm ?_)
      rw [writeOut, dif_pos hsome, (Sink.write_of_recorded hresult).1]
      exact if_neg hshare
  | case6 _ _ _ hnone _ hresult =>
      rw [writeOut, dif_neg hnone, (Sink.flush_of_recorded hresult).1]
      rfl
  | case7 _ _ _ hnone _ hresult =>
      rw [writeOut, dif_neg hnone, (Sink.flush_of_recorded hresult).1]
      rfl
  | case8 _ _ _ hnone _ _ hresult =>
      rw [writeOut, dif_neg hnone, (Sink.flush_of_recorded hresult).1]
      rfl

theorem stop_recorded (sink : Sink σ) (work : Work (Recorded σ)) :
    (stop sink.recorded work).plain = stop sink work.plain := by
  unfold stop
  rcases hresult : sink.recorded.shutdown work.stream with ⟨result, after⟩
  have hplain : sink.shutdown work.plain.stream = (result, after.stream) :=
    (Sink.shutdown_of_recorded hresult).1
  rw [hplain]
  cases result <;> rfl

theorem afterWrite_recorded (outbox : Outbox) (written : Progress × Recorded σ) :
    (afterWrite outbox written).map Work.plain (Prod.map id Recorded.stream) =
      afterWrite outbox (written.map id Recorded.stream) := by
  obtain ⟨progress, stream⟩ := written
  cases progress <;> rfl

theorem writeBatches_succ (sink : Sink σ) (limit : Nat) (hasSenders : Bool) (share : Nat)
    (outbox : Outbox) (stream : σ) :
    writeBatches sink limit hasSenders (share + 1) outbox stream =
      match outbox.takeUpTo (limit + 1) with
      | ([], outbox) =>
          if hasSenders then ⟨.idle, outbox, stream⟩ else stop sink ⟨.idle, outbox, stream⟩
      | (frame :: batch, rest) =>
          if share = 0 then ⟨.writing (Slices.ofFrames (frame :: batch)) false, rest, stream⟩
          else
            match afterWrite rest
              (writeBatch sink share stream (Slices.ofFrames (frame :: batch))) with
            | .inl work => work
            | .inr (share, stream) => writeBatches sink limit hasSenders share rest stream := by
  rw [writeBatches]
  split
  · rename_i htaken
    rewrite [htaken]
    rfl
  · rename_i htaken
    rewrite [htaken]
    rfl

theorem writeBatches_recorded (sink : Sink σ) (limit : Nat) (hasSenders : Bool) (share : Nat)
    (outbox : Outbox) (before : Recorded σ) :
    (writeBatches sink.recorded limit hasSenders share outbox before).plain =
      writeBatches sink limit hasSenders share outbox before.stream := by
  fun_induction writeBatches sink.recorded limit hasSenders share outbox before with
  | case1 => rw [writeBatches]; rfl
  | case2 _ _ _ _ htaken hsenders => rw [writeBatches_succ, htaken]; exact (if_pos hsenders).symm
  | case3 _ _ _ _ htaken hsenders =>
      rw [writeBatches_succ, htaken, stop_recorded]
      exact (if_neg hsenders).symm
  | case4 _ _ _ _ _ htaken => rw [writeBatches_succ, htaken]; rfl
  | case5 outbox before share frame batch rest htaken slices hshare work hafter =>
      have hplain := afterWrite_recorded rest (writeBatch sink.recorded share before slices)
      rw [hafter, writeBatch, writeOut_recorded] at hplain
      rw [writeBatches_succ, htaken]
      refine Eq.trans ?_ (if_neg hshare).symm
      rw [writeBatch, ← hplain]
      rfl
  | case6 outbox before share frame batch rest htaken slices hshare left after hafter ih =>
      have hplain := afterWrite_recorded rest (writeBatch sink.recorded share before slices)
      rw [hafter, writeBatch, writeOut_recorded] at hplain
      rw [writeBatches_succ, htaken, ih]
      refine Eq.trans ?_ (if_neg hshare).symm
      rw [writeBatch, ← hplain]
      rfl

/-- A writer does the same with a stream whose calls are recorded. -/
theorem poll_recorded (sink : Sink σ) (maxBatch : Nat) (hasSenders : Bool)
    (work : Work (Recorded σ)) :
    (poll sink.recorded maxBatch hasSenders work).plain =
      poll sink maxBatch hasSenders work.plain := by
  obtain ⟨writer, outbox, before⟩ := work
  cases writer with
  | ended result => rfl
  | unable => rfl
  | closing => exact stop_recorded sink _
  | idle =>
      by_cases hstopped : outbox.stopped = true
      · simp only [poll, Work.plain, hstopped, if_true]
        exact stop_recorded sink _
      · simp only [poll, Work.plain, hstopped, if_false, Bool.false_eq_true]
        exact writeBatches_recorded sink _ _ _ _ _
  | writing left isBlocked =>
      by_cases hstopped : outbox.stopped = true
      · simp only [poll, Work.plain, hstopped, if_true]
        exact stop_recorded sink _
      · have hplain := afterWrite_recorded outbox
          (writeBatch sink.recorded transfersPerTurn before left)
        rw [writeBatch, writeOut_recorded] at hplain
        simp only [poll, Work.plain, hstopped, if_false, Bool.false_eq_true, writeBatch, ← hplain]
        split
        · rename_i work hafter
          rw [hafter]
          rfl
        · rename_i share after hafter
          rw [hafter]
          exact writeBatches_recorded sink _ _ _ _ _

end Writer

end RoutedSession
