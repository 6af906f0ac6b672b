import Mathlib.Data.List.Induction
import RoutedSession.Outbox.Script
import RoutedSession.Proofs.Outbox.Batches

namespace RoutedSession

theorem Slices.ne_nil_of_mem_drop {slices : List Bytes} (hfilled : ∀ slice ∈ slices, slice ≠ [])
    (count : Nat) : ∀ slice ∈ drop count slices, slice ≠ [] := by
  induction slices generalizing count with
  | nil => simp [drop]
  | cons first rest ih =>
      have hrest : ∀ slice ∈ rest, slice ≠ [] := fun slice hmem =>
        hfilled slice (List.mem_cons_of_mem _ hmem)
      unfold drop
      split
      · rename_i hlonger
        rw [Bytes.hasAtLeast_eq_true] at hlonger
        intro slice hmem
        rcases List.mem_cons.mp hmem with rfl | hmem
        · rw [← List.length_pos_iff, List.length_drop]
          omega
        · exact hrest slice hmem
      · exact ih hrest _

namespace StreamCall

def tookBytes : StreamCall → Bool
  | write _ (.took (_ + 1)) => true
  | _ => false

/-- Whether the stream blocked when it was to take bytes or to flush them. -/
def wasBlocked : StreamCall → Bool
  | write _ .blocked | flush .blocked => true
  | _ => false

end StreamCall

namespace Writer

variable {σ : Type}

/-- One more turn for a batch: what is left of it is written to the stream as it is by then. Once
nothing is left or the stream has failed, nothing more is done. -/
def goOn (sink : Sink σ) : Progress × List StreamCall → Nat × σ → Progress × List StreamCall
  | (.halted left _, calls), (share, stream) =>
      let (progress, after) := writeBatch sink.recorded share ⟨stream, calls⟩ left
      (progress, after.calls)
  | settled, _ => settled

/-- Writes a batch in turns, as a writer does that is not told to stop, each with its share of
transfers and with the stream as it is by then. The calls are recorded. -/
def writeInTurns (sink : Sink σ) (turns : List (Nat × σ)) (batch : List Frame) :
    Progress × List StreamCall :=
  turns.foldl (goOn sink) (.halted (Slices.ofFrames batch) false, [])

/-- The calls have brought a batch with the bytes `whole` to where `left` is left. -/
structure Midway (whole : Bytes) (left : List Bytes) (calls : List StreamCall) : Prop where
  going : ∀ call ∈ calls, call.tookBytes = true ∨ ∃ offered, call = .write offered .blocked
  /-- Each byte has been taken once or is left. -/
  rest : calls.flatMap StreamCall.taken ++ left.flatten = whole
  filled : ∀ slice ∈ left, slice ≠ []
  /-- Each write that has taken bytes leaves fewer. -/
  few : calls.countP StreamCall.tookBytes + total left ≤ whole.length

/-- How writing a batch with the bytes `whole` stands after the calls. A flush that blocks is tried
again. -/
inductive BatchStands (whole : Bytes) : Progress → List StreamCall → Prop where
  | halted {left : List Bytes} {calls : List StreamCall} (isBlocked : Bool)
      (hmidway : Midway whole left calls) (hsome : left ≠ []) :
      BatchStands whole (.halted left isBlocked) calls
  | flushing {calls : List StreamCall} (attempts : Nat) (hmidway : Midway whole [] calls) :
      BatchStands whole (.halted [] true)
        (calls ++ List.replicate (attempts + 1) (.flush .blocked))
  | finished {calls : List StreamCall} (attempts share : Nat) (hmidway : Midway whole [] calls) :
      BatchStands whole (.finished share)
        (calls ++ List.replicate attempts (.flush .blocked) ++ [.flush .done])
  | flushFails {calls : List StreamCall} {reason : StreamError} (attempts : Nat)
      (hmidway : Midway whole [] calls) :
      BatchStands whole (.failed reason)
        (calls ++ List.replicate attempts (.flush .blocked) ++ [.flush (.failed reason)])
  | writeFails {left : List Bytes} {calls : List StreamCall} {reason : StreamError}
      (hmidway : Midway whole left calls) (hsome : left ≠ []) :
      BatchStands whole (.failed reason) (calls ++ [.write left (.failed reason)])
  | takesNothing {left : List Bytes} {calls : List StreamCall}
      (hmidway : Midway whole left calls) (hsome : left ≠ []) :
      BatchStands whole (.failed (.tookNothing "write_vectored returned 0"))
        (calls ++ [.write left (.took 0)])

/-- Each write offers what was left at that time. -/
def OffersRest (whole : Bytes) (calls : List StreamCall) : Prop :=
  ∀ front offered result back, calls = front ++ .write offered result :: back →
    offered ≠ [] ∧ Midway whole offered front

/-- What writing a batch in turns comes to. -/
structure ResumesExactly (sink : Sink σ) (turns : List (Nat × σ)) (batch : List Frame) : Prop where
  outcome : BatchStands (batch.flatMap Frame.bytes) (writeInTurns sink turns batch).1
    (writeInTurns sink turns batch).2
  offers_rest : OffersRest (batch.flatMap Frame.bytes) (writeInTurns sink turns batch).2
  /-- Writing is over after as many turns as there are bytes and times at which the stream blocks.
  -/
  ends : (∀ turn ∈ turns, sink.cost ≤ turn.1) →
    (batch.flatMap Frame.bytes).length +
        (writeInTurns sink turns batch).2.countP StreamCall.wasBlocked ≤ turns.length →
      ∀ left isBlocked, (writeInTurns sink turns batch).1 ≠ .halted left isBlocked

variable {whole : Bytes} {left : List Bytes} {calls : List StreamCall}

theorem midway_start (batch : List Frame) :
    Midway (batch.flatMap Frame.bytes) (Slices.ofFrames batch) [] where
  going := by simp
  rest := Slices.flatten_ofFrames batch
  filled := fun _ hmem => Slices.ne_nil_of_mem_ofFrames hmem
  few := by simp [total, Slices.flatten_ofFrames]

namespace Midway

theorem hasBytes_iff (hmidway : Midway whole left calls) : hasBytes left = true ↔ left ≠ [] := by
  cases left with
  | nil => simp [hasBytes]
  | cons slice rest =>
      have hslice := hmidway.filled slice List.mem_cons_self
      simp [hasBytes, hslice]

theorem eq_nil (hmidway : Midway whole left calls) (hnone : ¬hasBytes left = true) : left = [] := by
  rwa [hmidway.hasBytes_iff, Classical.not_not] at hnone

theorem took (hmidway : Midway whole left calls) (hsome : hasBytes left = true) (count : Nat) :
    Midway whole (Slices.drop (count + 1) left) (calls ++ [.write left (.took (count + 1))]) where
  going := List.forall_mem_append.mpr
    ⟨hmidway.going, List.forall_mem_singleton.mpr (.inl rfl)⟩
  rest := by
    rw [List.flatMap_append, List.flatMap_singleton, Slices.flatten_drop, List.append_assoc,
      StreamCall.taken, List.take_append_drop]
    exact hmidway.rest
  filled := Slices.ne_nil_of_mem_drop hmidway.filled _
  few := by
    have hfew := hmidway.few
    rw [hasBytes_eq_true] at hsome
    have hone : [StreamCall.write left (.took (count + 1))].countP StreamCall.tookBytes = 1 := rfl
    rw [List.countP_append, hone, total_drop]
    omega

theorem blocked (hmidway : Midway whole left calls) :
    Midway whole left (calls ++ [.write left .blocked]) where
  going := List.forall_mem_append.mpr
    ⟨hmidway.going, List.forall_mem_singleton.mpr (.inr ⟨left, rfl⟩)⟩
  rest := by
    have htaken : (StreamCall.write left .blocked).taken = [] := rfl
    rw [List.flatMap_append, List.flatMap_singleton, htaken, List.append_nil]
    exact hmidway.rest
  filled := hmidway.filled
  few := by
    rw [List.countP_append]
    exact hmidway.few

end Midway

theorem offersRest_append (hoffers : OffersRest whole calls) {call : StreamCall}
    (hlast : ∀ offered result, call = .write offered result →
      offered ≠ [] ∧ Midway whole offered calls) : OffersRest whole (calls ++ [call]) := by
  intro front offered result back hcalls
  rcases List.eq_nil_or_concat back with rfl | ⟨between, last, rfl⟩
  · obtain ⟨rfl, hcall⟩ := List.append_inj' hcalls rfl
    exact hlast offered result (List.singleton_inj.mp hcall)
  · have hsplit : calls ++ [call] = (front ++ .write offered result :: between) ++ [last] := by
      simpa using hcalls
    obtain ⟨hbefore, -⟩ := List.append_inj' hsplit rfl
    exact hoffers front offered result between hbefore

theorem Midway.offersRest_write (hmidway : Midway whole left calls) (hsome : hasBytes left = true)
    (hoffers : OffersRest whole calls) (result : Written) :
    OffersRest whole (calls ++ [.write left result]) := by
  refine offersRest_append hoffers ?_
  rintro offered result ⟨⟩
  exact ⟨hmidway.hasBytes_iff.mp hsome, hmidway⟩

theorem offersRest_flush (hoffers : OffersRest whole calls) (result : Completion) :
    OffersRest whole (calls ++ [.flush result]) := by
  refine offersRest_append hoffers fun offered written hflush => ?_
  cases hflush

/-- How a batch of which all bytes have been taken stands after a flush. -/
def afterFlush (share : Nat) : Completion → Progress
  | .done => .finished share
  | .blocked => .halted [] true
  | .failed reason => .failed reason

theorem writeBatch_nil (sink : Sink σ) (share : Nat) (stream : σ) :
    Writer.writeBatch sink share stream [] =
      (afterFlush share (sink.flush stream).1, (sink.flush stream).2) := by
  rw [Writer.writeBatch, writeOut, dif_neg (by simp [hasBytes])]
  rcases sink.flush stream with ⟨result, after⟩
  cases result <;> rfl

theorem Midway.flush (hmidway : Midway whole [] calls) (sink : Sink σ) (attempts share : Nat)
    {before : Recorded σ}
    (hcalls : before.calls = calls ++ List.replicate attempts (.flush .blocked))
    (hoffers : OffersRest whole before.calls) :
    BatchStands whole (Writer.writeBatch sink.recorded share before []).1
        (Writer.writeBatch sink.recorded share before []).2.calls ∧
      OffersRest whole (Writer.writeBatch sink.recorded share before []).2.calls := by
  rw [writeBatch_nil]
  rcases hresult : sink.recorded.flush before with ⟨result, after⟩
  dsimp only
  rw [(Sink.flush_of_recorded hresult).2]
  refine ⟨?_, offersRest_flush hoffers result⟩
  rw [hcalls]
  cases result with
  | done => exact .finished attempts share hmidway
  | failed reason => exact .flushFails attempts hmidway
  | blocked =>
      rw [List.append_assoc, ← List.replicate_succ']
      exact .flushing attempts hmidway

theorem Midway.writeBatch (sink : Sink σ) (share : Nat) {before : Recorded σ}
    (hmidway : Midway whole left before.calls) (hoffers : OffersRest whole before.calls) :
    BatchStands whole (writeBatch sink.recorded share before left).1
        (writeBatch sink.recorded share before left).2.calls ∧
      OffersRest whole (writeBatch sink.recorded share before left).2.calls := by
  unfold Writer.writeBatch
  fun_induction writeOut sink.recorded "write_vectored returned 0" share before left with
  | case1 share before left hsome after hresult =>
      rw [(Sink.write_of_recorded hresult).2]
      exact ⟨.halted true hmidway.blocked (hmidway.hasBytes_iff.mp hsome),
        hmidway.offersRest_write hsome hoffers _⟩
  | case2 share before left hsome reason after hresult =>
      rw [(Sink.write_of_recorded hresult).2]
      exact ⟨.writeFails hmidway (hmidway.hasBytes_iff.mp hsome),
        hmidway.offersRest_write hsome hoffers _⟩
  | case3 share before left hsome after hresult =>
      rw [(Sink.write_of_recorded hresult).2]
      exact ⟨.takesNothing hmidway (hmidway.hasBytes_iff.mp hsome),
        hmidway.offersRest_write hsome hoffers _⟩
  | case4 share before left hsome count after hresult hshare =>
      exact ⟨.halted false hmidway (hmidway.hasBytes_iff.mp hsome), hoffers⟩
  | case5 share before left hsome count after hresult hshare ih =>
      rw [(Sink.write_of_recorded hresult).2] at ih
      exact ih (hmidway.took hsome count) (hmidway.offersRest_write hsome hoffers _)
  | case6 share before left hnone after hresult =>
      obtain rfl := hmidway.eq_nil hnone
      have hflush := hmidway.flush sink 0 share (List.append_nil _).symm hoffers
      rwa [writeBatch_nil, hresult] at hflush
  | case7 share before left hnone after hresult =>
      obtain rfl := hmidway.eq_nil hnone
      have hflush := hmidway.flush sink 0 share (List.append_nil _).symm hoffers
      rwa [writeBatch_nil, hresult] at hflush
  | case8 share before left hnone reason after hresult =>
      obtain rfl := hmidway.eq_nil hnone
      have hflush := hmidway.flush sink 0 share (List.append_nil _).symm hoffers
      rwa [writeBatch_nil, hresult] at hflush

/-- A turn that halts has come to where the stream blocks, or has left fewer bytes. A batch counts
for one byte as long as it is not flushed. -/
theorem total_of_halted {sink : Sink σ} {nothing : String} {share : Nat} {before : Recorded σ}
    {less : List Bytes} {isBlocked : Bool} (hhalted :
      (writeOut sink.recorded nothing share before left).1 = .halted less isBlocked) :
    max 1 (total less) + before.calls.countP StreamCall.wasBlocked +
        (if sink.cost ≤ share ∨ total left = 0 then 1 else 0) ≤
      max 1 (total left) + (writeOut sink.recorded nothing share before left).2.calls.countP
        StreamCall.wasBlocked := by
  fun_induction writeOut sink.recorded nothing share before left with
  | case1 share before left hsome after hresult =>
      obtain ⟨rfl, -⟩ := Progress.halted.inj hhalted
      have hone : [StreamCall.write left .blocked].countP StreamCall.wasBlocked = 1 := rfl
      rw [(Sink.write_of_recorded hresult).2, List.countP_append, hone]
      split <;> omega
  | case4 share before left hsome count after hresult hshare =>
      obtain ⟨rfl, -⟩ := Progress.halted.inj hhalted
      rw [hasBytes_eq_true] at hsome
      have hcost : ¬sink.cost ≤ share := Nat.not_le.mpr hshare
      rw [if_neg (by omega)]
      exact Nat.le_refl _
  | case5 share before left hsome count after hresult hshare ih =>
      have hlater := ih hhalted
      have hzero : [StreamCall.write left (.took (count + 1))].countP StreamCall.wasBlocked = 0 :=
        rfl
      rw [(Sink.write_of_recorded hresult).2, List.countP_append, hzero, total_drop] at hlater
      rw [hasBytes_eq_true] at hsome
      have hcost : sink.cost ≤ share := Nat.not_lt.mp hshare
      rw [if_pos (.inl hcost)]
      split at hlater <;> omega
  | case7 share before left hnone after hresult =>
      obtain ⟨rfl, -⟩ := Progress.halted.inj hhalted
      have hone : [StreamCall.flush .blocked].countP StreamCall.wasBlocked = 1 := rfl
      rw [(Sink.flush_of_recorded hresult).2, List.countP_append, hone]
      split <;> omega
  | _ => cases hhalted

theorem BatchStands.goOn {progress : Progress} (hstands : BatchStands whole progress calls)
    (hoffers : OffersRest whole calls) (sink : Sink σ) (turn : Nat × σ) :
    BatchStands whole (goOn sink (progress, calls) turn).1 (goOn sink (progress, calls) turn).2 ∧
      OffersRest whole (goOn sink (progress, calls) turn).2 := by
  cases hstands with
  | halted isBlocked hmidway hsome => exact hmidway.writeBatch sink turn.1 hoffers
  | flushing attempts hmidway => exact hmidway.flush sink (attempts + 1) turn.1 rfl hoffers
  | finished attempts share hmidway => exact ⟨.finished attempts share hmidway, hoffers⟩
  | flushFails attempts hmidway => exact ⟨.flushFails attempts hmidway, hoffers⟩
  | writeFails hmidway hsome => exact ⟨.writeFails hmidway hsome, hoffers⟩
  | takesNothing hmidway hsome => exact ⟨.takesNothing hmidway hsome, hoffers⟩

theorem total_of_goOn_halted {sink : Sink σ} {before : Progress × List StreamCall} {turn : Nat × σ}
    {less : List Bytes} {isBlocked : Bool} (hshare : sink.cost ≤ turn.1)
    (hhalted : (Writer.goOn sink before turn).1 = .halted less isBlocked) :
    ∃ left wasBlocked, before.1 = .halted left wasBlocked ∧
      max 1 (total less) + before.2.countP StreamCall.wasBlocked + 1 ≤
        max 1 (total left) + (Writer.goOn sink before turn).2.countP StreamCall.wasBlocked := by
  obtain ⟨progress, calls⟩ := before
  cases progress with
  | halted left wasBlocked =>
      have hturn := total_of_halted hhalted
      rw [if_pos (.inl hshare)] at hturn
      exact ⟨left, wasBlocked, rfl, hturn⟩
  | finished share => cases hhalted
  | failed reason => cases hhalted

theorem writeInTurns_concat (sink : Sink σ) (turns : List (Nat × σ)) (turn : Nat × σ)
    (batch : List Frame) :
    writeInTurns sink (turns ++ [turn]) batch = goOn sink (writeInTurns sink turns batch) turn :=
  List.foldl_append

theorem ofFrames_ne_nil (frame : Frame) (batch : List Frame) :
    Slices.ofFrames (frame :: batch) ≠ [] := by
  simp [Slices.ofFrames, Frame.slices]

theorem standing_writeInTurns (sink : Sink σ) (turns : List (Nat × σ)) (frame : Frame)
    (batch : List Frame) :
    let whole := (frame :: batch).flatMap Frame.bytes
    BatchStands whole (writeInTurns sink turns (frame :: batch)).1
        (writeInTurns sink turns (frame :: batch)).2 ∧
      OffersRest whole (writeInTurns sink turns (frame :: batch)).2 := by
  induction turns using List.reverseRecOn with
  | nil =>
      exact ⟨.halted false (midway_start _) (ofFrames_ne_nil frame batch),
        by simp [OffersRest, writeInTurns]⟩
  | append_singleton turns turn ih =>
      rw [writeInTurns_concat]
      exact ih.1.goOn ih.2 sink turn

theorem turns_le_of_halted {sink : Sink σ} {turns : List (Nat × σ)} {batch : List Frame}
    {isBlocked : Bool} (hshares : ∀ turn ∈ turns, sink.cost ≤ turn.1)
    (hhalted : (writeInTurns sink turns batch).1 = .halted left isBlocked) :
    turns.length + max 1 (total left) ≤ max 1 (batch.flatMap Frame.bytes).length +
      (writeInTurns sink turns batch).2.countP StreamCall.wasBlocked := by
  induction turns using List.reverseRecOn generalizing left isBlocked with
  | nil =>
      obtain ⟨rfl, -⟩ := Progress.halted.inj hhalted
      simp [total, Slices.flatten_ofFrames]
  | append_singleton turns turn ih =>
      rw [writeInTurns_concat] at hhalted ⊢
      obtain ⟨more, _, hbefore, hless⟩ := total_of_goOn_halted (hshares turn (by simp)) hhalted
      have hearlier := ih (fun turn hmem => hshares turn (List.mem_append_left _ hmem)) hbefore
      rw [List.length_append, List.length_singleton]
      omega

/-- Whatever a stream takes of a batch, the next write offers the rest, and the stream is flushed
once all is taken. A batch has a first frame: without frames a writer waits. -/
theorem writeInTurns_resumesExactly (sink : Sink σ) (turns : List (Nat × σ)) (frame : Frame)
    (batch : List Frame) : ResumesExactly sink turns (frame :: batch) := by
  obtain ⟨hstands, hoffers⟩ := standing_writeInTurns sink turns frame batch
  refine ⟨hstands, hoffers, fun hshares henough left isBlocked hhalted => ?_⟩
  have hspent := turns_le_of_halted hshares hhalted
  have hfilled := hasBytes_eq_true.mp
    ((midway_start (frame :: batch)).hasBytes_iff.mpr (ofFrames_ne_nil frame batch))
  rw [total, Slices.flatten_ofFrames] at hfilled
  omega

/-- The first write ends inside the second header and the next that takes bytes inside the payload;
in between the stream blocks. -/
example :
    let turns : List (Nat × ScriptedStream) :=
      [(1, { script := [.takeUpTo 6, .block] }), (1, { script := [.takeUpTo 3] })]
    let batch : List Frame := [.empty .heartbeat, ⟨⟨.data, [7, 8]⟩, by decide⟩]
    (writeInTurns ScriptedStream.sink turns batch).2.map StreamCall.taken =
      [[3, 0, 0, 0, 4, 0], [], [0, 2, 7], [8], []] := by
  decide +kernel

end Writer

end RoutedSession
