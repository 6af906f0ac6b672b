import RoutedSession.Proofs.Outbox.Acts
import RoutedSession.Proofs.Outbox.Record

namespace RoutedSession

namespace Slices

theorem drop_drop (more count : Nat) (slices : List Bytes) :
    drop more (drop count slices) = drop (count + more) slices := by
  induction slices generalizing count more with
  | nil => rfl
  | cons slice rest ih =>
      simp only [drop, Bytes.hasAtLeast_eq_true]
      by_cases hlonger : count + 1 ≤ slice.length
      · simp only [if_pos hlonger, drop, Bytes.hasAtLeast_eq_true, List.length_drop, List.drop_drop]
        by_cases henough : count + more + 1 ≤ slice.length
        · rw [if_pos henough, if_pos (by omega)]
        · rw [if_neg henough, if_neg (by omega)]
          congr 1
          omega
      · rw [if_neg hlonger, if_neg (by omega), ih]
        congr 1
        omega

theorem ne_nil_of_mem_ofFrames {frames : List Frame} {slice : Bytes}
    (hmem : slice ∈ ofFrames frames) : slice ≠ [] := by
  obtain ⟨frame, -, hmem⟩ := List.mem_flatMap.mp hmem
  unfold Frame.slices at hmem
  split at hmem
  · obtain rfl := List.mem_singleton.mp hmem
    exact List.cons_ne_nil _ _
  · rename_i hpayload
    rcases List.mem_cons.mp hmem with rfl | hmem
    · exact List.cons_ne_nil _ _
    · obtain rfl := List.mem_singleton.mp hmem
      exact hpayload

theorem drop_zero_ofFrames (frames : List Frame) : drop 0 (ofFrames frames) = ofFrames frames := by
  have hdrop (slices : List Bytes) (hfull : ∀ slice ∈ slices, slice ≠ []) :
      drop 0 slices = slices := by
    cases slices with
    | nil => rfl
    | cons slice rest =>
        have hpos := List.length_pos_iff.mpr (hfull slice List.mem_cons_self)
        simp [drop, Bytes.hasAtLeast_eq_true.mpr hpos]
  exact hdrop _ fun _ hmem => ne_nil_of_mem_ofFrames hmem

end Slices

namespace StreamCall

def isShutdown : StreamCall → Bool
  | shutdown _ => true
  | write _ _ | flush _ => false

/-- What a call may offer to a stream that has taken `front`: what is left of a batch of at most
`most` frames, when the stream has taken the frames before the batch and the part that is not
offered. -/
def Offers (most : Nat) (entered : List Frame) (front : Bytes) : StreamCall → Prop
  | write offered _ => ∃ done batch later count, entered = done ++ batch ++ later ∧
      batch.length ≤ most ∧ offered = Slices.drop count (Slices.ofFrames batch) ∧
      front = done.flatMap Frame.bytes ++ (batch.flatMap Frame.bytes).take count
  | flush _ | shutdown _ => True

/-- Each of the calls to a stream that has taken `front` offers what it may. -/
def InBatches (most : Nat) (entered : List Frame) : (front : Bytes) → List StreamCall → Prop
  | _, [] => True
  | front, call :: calls =>
      call.Offers most entered front ∧ InBatches most entered (front ++ call.taken) calls

variable {most : Nat} {entered : List Frame}

theorem inBatches_append {front : Bytes} {calls more : List StreamCall} :
    InBatches most entered front (calls ++ more) ↔ InBatches most entered front calls ∧
      InBatches most entered (front ++ calls.flatMap taken) more := by
  induction calls generalizing front with
  | nil => simp [InBatches]
  | cons call calls ih => simp [InBatches, ih, and_assoc]

theorem Offers.enter {front : Bytes} {call : StreamCall} (hoffers : call.Offers most entered front)
    (more : List Frame) : call.Offers most (entered ++ more) front := by
  cases call with
  | write offered result =>
      obtain ⟨done, batch, later, count, rfl, hrest⟩ := hoffers
      exact ⟨done, batch, later ++ more, count, by simp, hrest⟩
  | flush result => trivial
  | shutdown result => trivial

theorem InBatches.enter {front : Bytes} {calls : List StreamCall}
    (hcalls : InBatches most entered front calls) (more : List Frame) :
    InBatches most (entered ++ more) front calls := by
  induction calls generalizing front with
  | nil => trivial
  | cons call calls ih => exact ⟨hcalls.1.enter more, ih hcalls.2⟩

end StreamCall

namespace Writer

open StreamCall (InBatches Offers)

variable {σ : Type} {most : Nat} {entered queue batch : List Frame} {count : Nat}
  {calls : List StreamCall}

/-- The calls have brought a writer to the byte `count` of a batch behind which `queue` is left, and
after each of them it has gone on. -/
structure Reached (most : Nat) (entered queue batch : List Frame) (count : Nat)
    (calls : List StreamCall) : Prop where
  split : ∃ done, entered = done ++ batch ++ queue ∧ calls.flatMap StreamCall.taken =
    done.flatMap Frame.bytes ++ (batch.flatMap Frame.bytes).take count
  short : batch.length ≤ most
  going : ∀ call ∈ calls, call.ending? = none
  in_batches : InBatches most entered [] calls

/-- The calls end with one after which a writer ends, with this result. -/
structure Concluded (most : Nat) (entered : List Frame) (result : Except SessionError Unit)
    (calls : List StreamCall) : Prop where
  last : ∃ front call, calls = front ++ [call] ∧ call.ending? = some result ∧
    ∀ earlier ∈ front, earlier.ending? = none
  taken_prefix : calls.flatMap StreamCall.taken <+: entered.flatMap Frame.bytes
  in_batches : InBatches most entered [] calls

theorem reached_start (most : Nat) : Reached most [] [] [] 0 [] :=
  ⟨⟨[], rfl, rfl⟩, Nat.zero_le _, nofun, trivial⟩

namespace Reached

theorem offers (hreached : Reached most entered queue batch count calls) (result : Written) :
    Offers most entered (calls.flatMap StreamCall.taken)
      (.write (Slices.drop count (Slices.ofFrames batch)) result) := by
  obtain ⟨done, hentered, htaken⟩ := hreached.split
  exact ⟨done, batch, queue, count, hentered, hreached.short, rfl, htaken⟩

theorem inBatches_note (hreached : Reached most entered queue batch count calls) {call : StreamCall}
    (hoffers : call.Offers most entered (calls.flatMap StreamCall.taken)) :
    InBatches most entered [] (calls ++ [call]) :=
  StreamCall.inBatches_append.mpr ⟨hreached.in_batches, hoffers, trivial⟩

theorem note (hreached : Reached most entered queue batch count calls) {call : StreamCall}
    {more : Nat} (hgoes : call.ending? = none)
    (hoffers : call.Offers most entered (calls.flatMap StreamCall.taken))
    (htakes : call.taken = ((batch.flatMap Frame.bytes).drop count).take more) :
    Reached most entered queue batch (count + more) (calls ++ [call]) where
  split := by
    obtain ⟨done, hentered, htaken⟩ := hreached.split
    refine ⟨done, hentered, ?_⟩
    rw [List.flatMap_append, htaken, List.append_assoc, List.flatMap_singleton, htakes,
      List.take_add]
  short := hreached.short
  going := List.forall_mem_append.mpr ⟨hreached.going, List.forall_mem_singleton.mpr hgoes⟩
  in_batches := hreached.inBatches_note hoffers

theorem note_nothing (hreached : Reached most entered queue batch count calls) {call : StreamCall}
    (hgoes : call.ending? = none)
    (hoffers : call.Offers most entered (calls.flatMap StreamCall.taken))
    (htakes : call.taken = []) : Reached most entered queue batch count (calls ++ [call]) := by
  have htakes : call.taken = ((batch.flatMap Frame.bytes).drop count).take 0 := by
    rw [htakes, List.take_zero]
  exact hreached.note hgoes hoffers htakes

theorem taken_prefix (hreached : Reached most entered queue batch count calls) :
    calls.flatMap StreamCall.taken <+: entered.flatMap Frame.bytes := by
  obtain ⟨done, rfl, htaken⟩ := hreached.split
  rw [htaken, List.append_assoc, List.flatMap_append, List.flatMap_append]
  exact (List.prefix_append_right_inj _).mpr
    ((List.take_prefix _ _).trans (List.prefix_append _ _))

theorem conclude (hreached : Reached most entered queue batch count calls) {call : StreamCall}
    {result : Except SessionError Unit} (hends : call.ending? = some result)
    (hoffers : call.Offers most entered (calls.flatMap StreamCall.taken)) :
    Concluded most entered result (calls ++ [call]) where
  last := ⟨calls, call, rfl, hends, hreached.going⟩
  taken_prefix := by
    rw [List.flatMap_append, List.flatMap_singleton, StreamCall.taken_of_ending hends,
      List.append_nil]
    exact hreached.taken_prefix
  in_batches := hreached.inBatches_note hoffers

theorem finish (hreached : Reached most entered queue batch count calls)
    (hnone : hasBytes (Slices.drop count (Slices.ofFrames batch)) = false) :
    Reached most entered queue [] 0 calls where
  split := by
    obtain ⟨done, hentered, htaken⟩ := hreached.split
    refine ⟨done ++ batch, by rw [hentered, List.append_nil], ?_⟩
    rw [← Bool.not_eq_true, hasBytes_eq_true, total_drop, total, Slices.flatten_ofFrames] at hnone
    rw [htaken, List.take_of_length_le (by omega)]
    simp
  short := Nat.zero_le _
  going := hreached.going
  in_batches := hreached.in_batches

theorem take (hreached : Reached most entered (batch ++ queue) [] 0 calls)
    (hshort : batch.length ≤ most) : Reached most entered queue batch 0 calls where
  split := by
    obtain ⟨done, hentered, htaken⟩ := hreached.split
    exact ⟨done, by simpa using hentered, by simpa using htaken⟩
  short := hshort
  going := hreached.going
  in_batches := hreached.in_batches

theorem enter (hreached : Reached most entered queue batch count calls) (more : List Frame) :
    Reached most (entered ++ more) (queue ++ more) batch count calls where
  split := by
    obtain ⟨done, hentered, htaken⟩ := hreached.split
    exact ⟨done, by simp [hentered], htaken⟩
  short := hreached.short
  going := hreached.going
  in_batches := hreached.in_batches.enter more

theorem taken_eq (hreached : Reached most entered [] [] count calls) :
    calls.flatMap StreamCall.taken = entered.flatMap Frame.bytes := by
  obtain ⟨done, rfl, htaken⟩ := hreached.split
  simpa using htaken

end Reached

/-- Where a writer is that has made the calls. Once it has ended, nobody takes frames out of the
queue; if it has begun to end the stream and the shutdown has not been signalled, the stream has
taken all frames. -/
inductive Logged (most : Nat) (entered : List Frame) (outbox : Outbox) (calls : List StreamCall) :
    Writer → Prop where
  | idle (hreached : Reached most entered outbox.frames [] 0 calls) :
      Logged most entered outbox calls .idle
  | writing {batch : List Frame} {count : Nat} (isBlocked : Bool)
      (hreached : Reached most entered outbox.frames batch count calls) :
      Logged most entered outbox calls
        (.writing (Slices.drop count (Slices.ofFrames batch)) isBlocked)
  | closing {batch : List Frame} {count : Nat}
      (hreached : Reached most entered outbox.frames batch count calls)
      (hall : outbox.stopped = false →
        calls.flatMap StreamCall.taken = entered.flatMap Frame.bytes) :
      Logged most entered outbox calls .closing
  | ended {result : Except SessionError Unit} (hgone : outbox.receiving = false)
      (hconcluded : Concluded most entered result calls)
      (hall : result = .ok () → outbox.stopped = false →
        calls.flatMap StreamCall.taken = entered.flatMap Frame.bytes) :
      Logged most entered outbox calls (.ended result)
  | unable (hgone : outbox.receiving = false) (hnone : calls = []) :
      Logged most entered outbox calls .unable

/-- What is known of a writer stays true when frames enter the queue, which they only do as long as
somebody takes them out and the writer has not begun to end the stream, and when the shutdown is
signalled. -/
theorem Logged.grow {outbox after : Outbox} {more : List Frame} {writer : Writer}
    (hlogged : Logged most entered outbox calls writer)
    (hframes : after.frames = outbox.frames ++ more)
    (hreceiving : after.receiving = outbox.receiving)
    (hstopped : outbox.stopped = true → after.stopped = true)
    (hopen : more ≠ [] → outbox.receiving = true ∧ writer ≠ .closing) :
    Logged most (entered ++ more) after calls writer := by
  have hearlier (hgoing : after.stopped = false) : outbox.stopped = false := by
    rw [← Bool.not_eq_true] at hgoing ⊢
    exact fun hbefore => hgoing (hstopped hbefore)
  cases hlogged with
  | idle hreached =>
      refine .idle ?_
      rw [hframes]
      exact hreached.enter more
  | writing isBlocked hreached =>
      refine .writing isBlocked ?_
      rw [hframes]
      exact hreached.enter more
  | unable hgone hnone => exact .unable (hreceiving.trans hgone) hnone
  | closing hreached hall =>
      have hmore : more = [] := Classical.not_not.mp fun hsome => (hopen hsome).2 rfl
      subst hmore
      rw [List.append_nil] at hframes ⊢
      rw [← hframes] at hreached
      exact .closing hreached fun hgoing => hall (hearlier hgoing)
  | ended hgone hconcluded hall =>
      -- Nobody takes frames out any more, so none have entered.
      have hmore : more = [] := by
        refine Classical.not_not.mp fun hsome => ?_
        rw [(hopen hsome).1] at hgone
        contradiction
      rw [hmore, List.append_nil]
      exact .ended (hreceiving.trans hgone) hconcluded fun hok hgoing => hall hok (hearlier hgoing)

namespace Logged

variable {outbox : Outbox} {writer : Writer}

theorem taken_prefix (hlogged : Logged most entered outbox calls writer) :
    calls.flatMap StreamCall.taken <+: entered.flatMap Frame.bytes := by
  cases hlogged with
  | idle hreached => exact hreached.taken_prefix
  | writing isBlocked hreached => exact hreached.taken_prefix
  | closing hreached hall => exact hreached.taken_prefix
  | ended hgone hconcluded hall => exact hconcluded.taken_prefix
  | unable hgone hnone =>
      rw [hnone]
      exact List.nil_prefix

theorem in_batches (hlogged : Logged most entered outbox calls writer) :
    InBatches most entered [] calls := by
  cases hlogged with
  | idle hreached => exact hreached.in_batches
  | writing isBlocked hreached => exact hreached.in_batches
  | closing hreached hall => exact hreached.in_batches
  | ended hgone hconcluded hall => exact hconcluded.in_batches
  | unable hgone hnone =>
      rw [hnone]
      trivial

theorem ended_iff (hlogged : Logged most entered outbox calls writer)
    (result : Except SessionError Unit) :
    writer = .ended result ↔ ∃ call ∈ calls, call.ending? = some result := by
  have hgoing (hgoing : ∀ call ∈ calls, call.ending? = none) :
      ¬∃ call ∈ calls, call.ending? = some result := by
    rintro ⟨call, hmem, hends⟩
    rw [hgoing call hmem] at hends
    contradiction
  cases hlogged with
  | idle hreached => exact iff_of_false nofun (hgoing hreached.going)
  | writing isBlocked hreached => exact iff_of_false nofun (hgoing hreached.going)
  | closing hreached hall => exact iff_of_false nofun (hgoing hreached.going)
  | unable hgone hnone => exact iff_of_false nofun (hgoing (by simp [hnone]))
  | @ended last hgone hconcluded hall =>
      obtain ⟨front, call, rfl, hends, hbefore⟩ := hconcluded.last
      constructor
      · intro hsame
        obtain rfl : last = result := Writer.ended.inj hsame
        exact ⟨call, by simp, hends⟩
      · rintro ⟨other, hmem, hother⟩
        rcases List.mem_append.mp hmem with hmem | hmem
        · rw [hbefore other hmem] at hother
          contradiction
        · rw [List.mem_singleton.mp hmem, hends] at hother
          rw [Option.some.inj hother]

theorem last_of_ending (hlogged : Logged most entered outbox calls writer)
    {front back : List StreamCall} {call : StreamCall} (hcalls : calls = front ++ call :: back)
    (hends : call.ending? ≠ none) : back = [] := by
  have hgoing (hgoing : ∀ call ∈ calls, call.ending? = none) : back = [] :=
    absurd (hgoing call (by simp [hcalls])) hends
  cases hlogged with
  | idle hreached => exact hgoing hreached.going
  | writing isBlocked hreached => exact hgoing hreached.going
  | closing hreached hall => exact hgoing hreached.going
  | unable hgone hnone => exact hgoing (by simp [hnone])
  | ended hgone hconcluded hall =>
      obtain ⟨before, last, hlast, -, hbefore⟩ := hconcluded.last
      rw [hcalls] at hlast
      rcases List.eq_nil_or_concat back with hnil | ⟨middle, final, rfl⟩
      · exact hnil
      · -- Otherwise the call is one of those after which the writer has gone on.
        have hsplit : (front ++ call :: middle) ++ [final] = before ++ [last] := by
          simpa using hlast
        obtain ⟨rfl, -⟩ := List.append_inj' hsplit rfl
        exact absurd (hbefore call (by simp)) hends

end Logged

theorem stop_cases_of_recorded (sink : Sink σ) (work : Work (Recorded σ)) :
    (∃ after, sink.shutdown work.stream.stream = (.blocked, after) ∧
        stop sink.recorded work =
          ⟨.closing, work.outbox, work.stream.note (.shutdown .blocked) after⟩) ∨
      ∃ result after, result ≠ .blocked ∧ sink.shutdown work.stream.stream = (result, after) ∧
        stop sink.recorded work = ⟨.ended (.ok ()), work.outbox.endReceiving,
          work.stream.note (.shutdown result) after⟩ := by
  have hnoted {result : Completion} {after : Recorded σ}
      (hresult : sink.recorded.shutdown work.stream = (result, after)) :
      sink.shutdown work.stream.stream = (result, after.stream) ∧
        after = work.stream.note (.shutdown result) after.stream := by
    obtain ⟨hplain, hcalls⟩ := Sink.shutdown_of_recorded hresult
    exact ⟨hplain, by rw [Recorded.note, ← hcalls]⟩
  rcases stop_cases sink.recorded work with
    ⟨after, hresult, hstop⟩ | ⟨result, after, hover, hresult, hstop⟩
  · obtain ⟨hplain, hafter⟩ := hnoted hresult
    exact .inl ⟨after.stream, hplain, by rw [hstop, ← hafter]⟩
  · obtain ⟨hplain, hafter⟩ := hnoted hresult
    exact .inr ⟨result, after.stream, hover, hplain, by rw [hstop, ← hafter]⟩

theorem logged_stop (sink : Sink σ) {work : Work (Recorded σ)}
    (hreached : Reached most entered work.outbox.frames batch count work.stream.calls)
    (hall : work.outbox.stopped = false →
      work.stream.calls.flatMap StreamCall.taken = entered.flatMap Frame.bytes) :
    Logged most entered (stop sink.recorded work).outbox
      (stop sink.recorded work).stream.calls (stop sink.recorded work).writer := by
  have hlater (result : Completion) (hgoing : work.outbox.stopped = false) :
      (work.stream.calls ++ [StreamCall.shutdown result]).flatMap StreamCall.taken =
        entered.flatMap Frame.bytes := by
    rw [List.flatMap_append, hall hgoing]
    exact List.append_nil _
  rcases stop_cases_of_recorded sink work with
    ⟨after, -, hstop⟩ | ⟨result, after, hover, -, hstop⟩
  · rw [hstop]
    exact .closing (hreached.note_nothing rfl trivial rfl) (hlater .blocked)
  · have hends : (StreamCall.shutdown result).ending? = some (.ok ()) := by
      cases result with
      | done => rfl
      | blocked => contradiction
      | failed reason => rfl
    rw [hstop]
    exact .ended rfl (hreached.conclude hends trivial) fun _ => hlater result

/-- An act of the writer keeps to the order of the frames, whatever the stream does. -/
theorem Act.logged {sink : Sink σ} {hasSenders : Bool} {before after : Work (Recorded σ)}
    (hact : Act sink.recorded most hasSenders before after)
    (hbefore : Logged most entered before.outbox before.stream.calls before.writer) :
    Logged most entered after.outbox after.stream.calls after.writer := by
  cases hact with
  | @takes outbox rest frame batch stream htaken =>
      obtain ⟨hreached⟩ | _ | _ | _ | _ := hbefore
      have hsplit := outbox.frames_takeUpTo most
      have hshort := outbox.length_takeUpTo most
      rw [htaken] at hsplit hshort
      dsimp only at hreached
      rw [hsplit] at hreached
      rw [← Slices.drop_zero_ofFrames]
      exact .writing false (hreached.take hshort)
  | writes isBlocked outbox htook =>
      obtain _ | ⟨_, hreached⟩ | _ | _ | _ := hbefore
      rw [Slices.drop_drop]
      refine .writing false ?_
      rw [(Sink.write_of_recorded htook).2]
      refine hreached.note rfl (hreached.offers _) ?_
      rw [StreamCall.taken, Slices.flatten_drop, Slices.flatten_ofFrames]
  | blocks isBlocked outbox hblocked =>
      obtain _ | ⟨_, hreached⟩ | _ | _ | _ := hbefore
      refine .writing true ?_
      rw [(Sink.write_of_recorded hblocked).2]
      exact hreached.note_nothing rfl (hreached.offers _) rfl
  | pauses left isBlocked outbox stream =>
      obtain _ | ⟨_, hreached⟩ | _ | _ | _ := hbefore
      exact .writing false hreached
  | flushes isBlocked outbox hnone hflushed =>
      obtain _ | ⟨_, hreached⟩ | _ | _ | _ := hbefore
      refine .idle ?_
      rw [(Sink.flush_of_recorded hflushed).2]
      refine (hreached.note_nothing rfl ?_ rfl).finish hnone
      trivial
  | flushBlocks isBlocked outbox hnone hblocked =>
      obtain _ | ⟨_, hreached⟩ | _ | _ | _ := hbefore
      refine .writing true ?_
      rw [(Sink.flush_of_recorded hblocked).2]
      exact hreached.note_nothing rfl trivial rfl
  | writeFails isBlocked outbox hfailed =>
      obtain _ | ⟨_, hreached⟩ | _ | _ | _ := hbefore
      rw [(Sink.write_of_recorded hfailed).2]
      exact .ended rfl (hreached.conclude rfl (hreached.offers _)) (by simp)
  | takesNothing isBlocked outbox htook =>
      obtain _ | ⟨_, hreached⟩ | _ | _ | _ := hbefore
      rw [(Sink.write_of_recorded htook).2]
      exact .ended rfl (hreached.conclude rfl (hreached.offers _)) (by simp)
  | flushFails isBlocked outbox hnone hfailed =>
      obtain _ | ⟨_, hreached⟩ | _ | _ | _ := hbefore
      rw [(Sink.flush_of_recorded hfailed).2]
      exact .ended rfl (hreached.conclude rfl trivial) (by simp)
  | stops hgoing hwhy =>
      obtain ⟨writer, outbox, stream⟩ := before
      cases hbefore with
      | idle hreached =>
          refine logged_stop sink hreached fun hgoing => ?_
          rcases hwhy with hstopped | hclosing | ⟨-, hempty, -⟩
          · exact absurd hstopped (Bool.eq_false_iff.mp hgoing)
          · cases hclosing
          · dsimp only at hempty hreached
            rw [hempty] at hreached
            exact hreached.taken_eq
      | writing isBlocked hreached =>
          refine logged_stop sink hreached fun hgoing => ?_
          rcases hwhy with hstopped | hclosing | ⟨hidle, -⟩
          · exact absurd hstopped (Bool.eq_false_iff.mp hgoing)
          · cases hclosing
          · cases hidle
      | closing hreached hall => exact logged_stop sink hreached hall
      | ended => contradiction
      | unable => contradiction

theorem logged_poll (sink : Sink σ) {maxBatch : Nat} (hasSenders : Bool) (work : Work (Recorded σ))
    (hbefore : Logged (maxBatch - 1 + 1) entered work.outbox work.stream.calls work.writer) :
    let after := poll sink.recorded maxBatch hasSenders work
    Logged (maxBatch - 1 + 1) entered after.outbox after.stream.calls after.writer :=
  poll_of_acts (P := fun work =>
    Logged (maxBatch - 1 + 1) entered work.outbox work.stream.calls work.writer)
    (fun _ _ hact => hact.logged) hbefore

/-- Whether a writer has not begun to end its stream. -/
def isBeforeEnd : Writer → Bool
  | idle | writing _ _ => true
  | closing | ended _ | unable => false

/-- A stream that has been asked to end is asked for nothing else. -/
structure EndsLast (writer : Writer) (calls : List StreamCall) : Prop where
  ordered : calls.Pairwise fun earlier later =>
    earlier.isShutdown = true → later.isShutdown = true
  none_before : writer.isBeforeEnd = true → ∀ call ∈ calls, call.isShutdown = false

theorem endsLast_nil (writer : Writer) : EndsLast writer [] :=
  ⟨.nil, fun _ => List.forall_mem_nil _⟩

namespace EndsLast

variable {before after : Writer}

theorem note (hlast : EndsLast before calls) {call : StreamCall}
    (hbefore : before.isBeforeEnd = true)
    (hafter : after.isBeforeEnd = true → call.isShutdown = false) :
    EndsLast after (calls ++ [call]) where
  ordered := by
    refine List.pairwise_append.mpr ⟨hlast.ordered, List.pairwise_singleton _ _, ?_⟩
    intro earlier hmem _ _ hshut
    rw [hlast.none_before hbefore earlier hmem] at hshut
    contradiction
  none_before hopen := List.forall_mem_append.mpr
    ⟨hlast.none_before hbefore, List.forall_mem_singleton.mpr (hafter hopen)⟩

theorem note_shutdown (hlast : EndsLast before calls) (result : Completion)
    (hafter : after.isBeforeEnd = false) :
    EndsLast after (calls ++ [.shutdown result]) where
  ordered := by
    refine List.pairwise_append.mpr ⟨hlast.ordered, List.pairwise_singleton _ _, ?_⟩
    rintro earlier _ _ hmem _
    rw [List.mem_singleton.mp hmem]
    rfl
  none_before hopen := by
    rw [hafter] at hopen
    contradiction

end EndsLast

theorem Act.endsLast {sink : Sink σ} {hasSenders : Bool} {before after : Work (Recorded σ)}
    (hact : Act sink.recorded most hasSenders before after)
    (hlast : EndsLast before.writer before.stream.calls) :
    EndsLast after.writer after.stream.calls := by
  cases hact with
  | takes stream htaken => exact ⟨hlast.ordered, fun _ => hlast.none_before rfl⟩
  | pauses left isBlocked outbox stream => exact ⟨hlast.ordered, fun _ => hlast.none_before rfl⟩
  | writes isBlocked outbox htook =>
      rw [(Sink.write_of_recorded htook).2]
      exact hlast.note rfl fun _ => rfl
  | blocks isBlocked outbox hblocked =>
      rw [(Sink.write_of_recorded hblocked).2]
      exact hlast.note rfl fun _ => rfl
  | flushes isBlocked outbox hnone hflushed =>
      rw [(Sink.flush_of_recorded hflushed).2]
      exact hlast.note rfl fun _ => rfl
  | flushBlocks isBlocked outbox hnone hblocked =>
      rw [(Sink.flush_of_recorded hblocked).2]
      exact hlast.note rfl fun _ => rfl
  | writeFails isBlocked outbox hfailed =>
      rw [(Sink.write_of_recorded hfailed).2]
      exact hlast.note rfl fun _ => rfl
  | takesNothing isBlocked outbox htook =>
      rw [(Sink.write_of_recorded htook).2]
      exact hlast.note rfl fun _ => rfl
  | flushFails isBlocked outbox hnone hfailed =>
      rw [(Sink.flush_of_recorded hfailed).2]
      exact hlast.note rfl fun _ => rfl
  | stops hgoing hwhy =>
      rcases stop_cases_of_recorded sink before with
        ⟨stream, -, hstop⟩ | ⟨result, stream, -, -, hstop⟩
      · rw [hstop]
        exact hlast.note_shutdown _ rfl
      · rw [hstop]
        exact hlast.note_shutdown _ rfl

theorem endsLast_poll (sink : Sink σ) (maxBatch : Nat) (hasSenders : Bool)
    (work : Work (Recorded σ)) (hlast : EndsLast work.writer work.stream.calls) :
    EndsLast (poll sink.recorded maxBatch hasSenders work).writer
      (poll sink.recorded maxBatch hasSenders work).stream.calls :=
  poll_of_acts (P := fun work => EndsLast work.writer work.stream.calls)
    (fun _ _ hact => hact.endsLast) hlast

theorem closing_poll (sink : Sink σ) (maxBatch : Nat) {hasSenders : Bool} {work : Work σ}
    (hwhy : work.writer = .closing → work.outbox.stopped = true ∨ hasSenders = false) :
    (poll sink maxBatch hasSenders work).writer = .closing →
      (poll sink maxBatch hasSenders work).outbox.stopped = true ∨ hasSenders = false := by
  refine poll_of_acts (P := fun work => work.writer = .closing →
    work.outbox.stopped = true ∨ hasSenders = false) ?_ hwhy
  intro before after hact hbefore hclosing
  cases hact with
  | stops hgoing hcause =>
      rcases stop_cases sink before with ⟨stream, -, hstop⟩ | ⟨result, stream, -, -, hstop⟩
      · rw [hstop]
        rcases hcause with hstopped | hagain | ⟨-, -, hnobody⟩
        · exact .inl hstopped
        · exact hbefore hagain
        · exact .inr hnobody
      · rw [hstop] at hclosing
        cases hclosing
  | _ => cases hclosing

end Writer

end RoutedSession
