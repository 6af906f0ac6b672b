import RoutedSession.Outbox.Writer

namespace RoutedSession

namespace Outbox

/-- Two states of a queue agree in how many slots there are, in whether frames may be taken out and
in whether the shutdown has been signalled. -/
structure SameTerms (before after : Outbox) : Prop where
  capacity : after.capacity = before.capacity
  receiving : after.receiving = before.receiving
  stopped : after.stopped = before.stopped

theorem SameTerms.refl (outbox : Outbox) : SameTerms outbox outbox :=
  ⟨rfl, rfl, rfl⟩

theorem SameTerms.trans {first middle last : Outbox} (hfront : SameTerms first middle)
    (hback : SameTerms middle last) : SameTerms first last :=
  ⟨hback.capacity.trans hfront.capacity, hback.receiving.trans hfront.receiving,
    hback.stopped.trans hfront.stopped⟩

theorem sameTerms_grantNext (outbox : Outbox) : outbox.SameTerms outbox.grantNext := by
  unfold grantNext
  split <;> exact ⟨rfl, rfl, rfl⟩

theorem sameTerms_leave (outbox : Outbox) (sender : SenderId) :
    outbox.SameTerms (outbox.leave sender) := by
  unfold leave
  split
  · have hgrant := sameTerms_grantNext { outbox with granted := outbox.granted.erase sender }
    exact ⟨hgrant.capacity, hgrant.receiving, hgrant.stopped⟩
  · exact ⟨rfl, rfl, rfl⟩

theorem sameTerms_send (outbox : Outbox) (sender : SenderId) (frame : Frame) :
    outbox.SameTerms (outbox.send sender frame).2 := by
  unfold send
  split
  · exact .refl outbox
  · split <;> exact ⟨rfl, rfl, rfl⟩

theorem sameTerms_resume (outbox : Outbox) (sender : SenderId) (frame : Frame) :
    outbox.SameTerms (outbox.resume sender frame).2 := by
  unfold resume
  split
  · exact sameTerms_leave outbox sender
  · split
    · exact .refl outbox
    · split <;> exact ⟨rfl, rfl, rfl⟩

theorem sameTerms_trySend (outbox : Outbox) (frame : Frame) :
    outbox.SameTerms (outbox.trySend frame).2 := by
  unfold trySend
  split
  · exact .refl outbox
  · split <;> exact ⟨rfl, rfl, rfl⟩

theorem sameTerms_takeUpTo (outbox : Outbox) (limit : Nat) :
    outbox.SameTerms (outbox.takeUpTo limit).2 := by
  induction limit generalizing outbox with
  | zero => exact .refl outbox
  | succ limit ih =>
      unfold takeUpTo
      split
      · exact .refl outbox
      · rename_i frame frames _
        have hgrant := (sameTerms_grantNext { outbox with frames }).trans (ih _)
        exact ⟨hgrant.capacity, hgrant.receiving, hgrant.stopped⟩

@[simp] theorem frames_leave (outbox : Outbox) (sender : SenderId) :
    (outbox.leave sender).frames = outbox.frames := by
  unfold leave
  split
  · exact frames_grantNext _
  · rfl

/-- What an attempt to send has made of the frames: one more, if it has succeeded. -/
def Adds (frames : List Frame) (frame : Frame) : Sent × Outbox → Prop
  | (.done, outbox) => outbox.frames = frames ++ [frame]
  | (.waiting, outbox) | (.failed _, outbox) => outbox.frames = frames

theorem adds_send (outbox : Outbox) (sender : SenderId) (frame : Frame) :
    Adds outbox.frames frame (outbox.send sender frame) := by
  unfold send
  split
  · rfl
  · split <;> rfl

theorem adds_resume (outbox : Outbox) (sender : SenderId) (frame : Frame) :
    Adds outbox.frames frame (outbox.resume sender frame) := by
  unfold resume
  split
  · exact outbox.frames_leave sender
  · split
    · rfl
    · split <;> rfl

theorem frames_trySend (outbox : Outbox) (frame : Frame) :
    (outbox.trySend frame).2.frames =
      match (outbox.trySend frame).1 with
      | .ok () => outbox.frames ++ [frame]
      | .error _ => outbox.frames := by
  unfold trySend
  split
  · rfl
  · split <;> rfl

theorem frames_takeUpTo_suffix (outbox : Outbox) (limit : Nat) :
    (outbox.takeUpTo limit).2.frames <:+ outbox.frames :=
  ⟨_, (outbox.frames_takeUpTo limit).symm⟩

theorem length_takeUpTo (outbox : Outbox) (limit : Nat) :
    (outbox.takeUpTo limit).1.length ≤ limit := by
  induction limit generalizing outbox with
  | zero => exact Nat.le_refl 0
  | succ limit ih =>
      unfold takeUpTo
      split
      · exact Nat.zero_le _
      · exact Nat.succ_le_succ (ih _)

theorem frames_eq_nil_of_takeUpTo {outbox rest : Outbox} {limit : Nat}
    (hnone : outbox.takeUpTo (limit + 1) = ([], rest)) : outbox.frames = [] ∧ rest = outbox := by
  unfold takeUpTo at hnone
  split at hnone
  · rename_i hframes
    exact ⟨hframes, (Prod.mk.inj hnone).2.symm⟩
  · simp at hnone

/-- No more slots are filled or given to senders than there are. -/
def Fits (outbox : Outbox) : Prop :=
  outbox.used ≤ outbox.capacity

theorem fits_ofCapacity (capacity : Nat) : (ofCapacity capacity).Fits :=
  Nat.zero_le _

theorem used_grantNext_le (outbox : Outbox) : outbox.grantNext.used ≤ outbox.used + 1 := by
  unfold grantNext
  split
  · exact Nat.le_succ _
  · exact Nat.le_refl _

theorem fits_grantNext {outbox : Outbox} (hfree : outbox.used < outbox.capacity) :
    outbox.grantNext.Fits := by
  rw [Fits, (sameTerms_grantNext outbox).capacity]
  exact Nat.le_trans (used_grantNext_le outbox) hfree

theorem used_erase {outbox : Outbox} {sender : SenderId}
    (hgranted : outbox.granted.contains sender = true) :
    { outbox with granted := outbox.granted.erase sender }.used + 1 = outbox.used := by
  have hmem : sender ∈ outbox.granted := List.contains_iff_mem.mp hgranted
  have hpos := List.length_pos_of_mem hmem
  simp only [used, List.length_erase_of_mem hmem]
  omega

theorem Fits.leave {outbox : Outbox} (hfits : outbox.Fits) (sender : SenderId) :
    (outbox.leave sender).Fits := by
  unfold Outbox.leave
  split
  · rename_i hgranted
    have hused := used_erase hgranted
    exact fits_grantNext (Nat.lt_of_lt_of_le (hused ▸ Nat.lt_succ_self _) hfits)
  · exact hfits

theorem used_append (outbox : Outbox) (frame : Frame) :
    (outbox.append frame).used = outbox.used + 1 := by
  simp only [used, append, List.length_append, List.length_singleton]
  omega

theorem fits_append {outbox : Outbox} (hfree : outbox.isFull = false) (frame : Frame) :
    (outbox.append frame).Fits := by
  rw [isFull, decide_eq_false_iff_not, Nat.not_le] at hfree
  rw [Fits, used_append]
  exact hfree

theorem Fits.send {outbox : Outbox} (hfits : outbox.Fits) (sender : SenderId) (frame : Frame) :
    (outbox.send sender frame).2.Fits := by
  unfold Outbox.send
  split
  · exact hfits
  · split
    · exact hfits
    · rename_i hfree
      exact fits_append (Bool.not_eq_true _ ▸ hfree) frame

theorem Fits.trySend {outbox : Outbox} (hfits : outbox.Fits) (frame : Frame) :
    (outbox.trySend frame).2.Fits := by
  unfold Outbox.trySend
  split
  · exact hfits
  · split
    · exact hfits
    · rename_i hfree
      exact fits_append (Bool.not_eq_true _ ▸ hfree) frame

theorem Fits.resume {outbox : Outbox} (hfits : outbox.Fits) (sender : SenderId) (frame : Frame) :
    (outbox.resume sender frame).2.Fits := by
  unfold Outbox.resume
  split
  · exact hfits.leave sender
  · split
    · exact hfits
    · split
      · rename_i hgranted
        rw [Fits, used_append, used_erase hgranted]
        exact hfits
      · exact hfits

theorem Fits.takeUpTo {outbox : Outbox} (hfits : outbox.Fits) (limit : Nat) :
    (outbox.takeUpTo limit).2.Fits := by
  induction limit generalizing outbox with
  | zero => exact hfits
  | succ limit ih =>
      unfold Outbox.takeUpTo
      split
      · exact hfits
      · rename_i frame frames hframes
        refine ih (fits_grantNext ?_)
        rw [Fits, used, hframes, List.length_cons] at hfits
        simp only [used]
        omega

theorem fits_endReceiving (outbox : Outbox) : outbox.endReceiving.Fits :=
  Nat.zero_le _

theorem Fits.length_frames {outbox : Outbox} (hfits : outbox.Fits) :
    outbox.frames.length ≤ outbox.capacity :=
  Nat.le_trans (Nat.le_add_right _ _) hfits

theorem isOpen_of_send {outbox : Outbox} {sender : SenderId} {frame : Frame}
    (hdone : (outbox.send sender frame).1 = .done) :
    outbox.receiving = true ∧ outbox.stopped = false := by
  unfold send at hdone
  split at hdone
  · contradiction
  · rename_i hopen
    rw [Bool.or_eq_true, not_or, Bool.not_eq_true', Bool.not_eq_false, Bool.not_eq_true] at hopen
    exact hopen.symm

theorem isOpen_of_trySend {outbox : Outbox} {frame : Frame}
    (hdone : (outbox.trySend frame).1 = .ok ()) :
    outbox.receiving = true ∧ outbox.stopped = false := by
  unfold trySend at hdone
  split at hdone
  · contradiction
  · rename_i hopen
    rw [Bool.or_eq_true, not_or, Bool.not_eq_true', Bool.not_eq_false, Bool.not_eq_true] at hopen
    exact hopen.symm

theorem isOpen_of_resume {outbox : Outbox} {sender : SenderId} {frame : Frame}
    (hdone : (outbox.resume sender frame).1 = .done) :
    outbox.receiving = true ∧ outbox.stopped = false := by
  unfold resume at hdone
  split at hdone
  · contradiction
  · rename_i hgoing
    split at hdone
    · contradiction
    · rename_i hopen
      rw [Bool.not_eq_true', Bool.not_eq_false] at hopen
      rw [Bool.not_eq_true] at hgoing
      exact ⟨hopen, hgoing⟩

theorem closed_of_send {outbox : Outbox} {sender : SenderId} {frame : Frame}
    {reason : SessionError} (hfailed : (outbox.send sender frame).1 = .failed reason) :
    reason = .closed := by
  unfold send at hfailed
  split at hfailed
  · exact (Sent.failed.inj hfailed).symm
  · split at hfailed <;> cases hfailed

theorem closed_of_resume {outbox : Outbox} {sender : SenderId} {frame : Frame}
    {reason : SessionError} (hfailed : (outbox.resume sender frame).1 = .failed reason) :
    reason = .closed := by
  unfold resume at hfailed
  split at hfailed
  · exact (Sent.failed.inj hfailed).symm
  · split at hfailed
    · exact (Sent.failed.inj hfailed).symm
    · split at hfailed <;> cases hfailed

/-- The shutdown has not been signalled, and frames may be taken out. -/
def IsOpen (outbox : Outbox) : Prop :=
  outbox.stopped = false ∧ outbox.receiving = true

instance (outbox : Outbox) : Decidable outbox.IsOpen :=
  inferInstanceAs (Decidable (_ ∧ _))

/-- How an attempt ends to send without waiting. -/
inductive Tries (outbox : Outbox) (frame : Frame) : Except SessionError Unit × Outbox → Prop where
  | closed (hclosed : ¬ outbox.IsOpen) : Tries outbox frame (.error .closed, outbox)
  | full (hopen : outbox.IsOpen) (hfull : outbox.capacity ≤ outbox.used) :
      Tries outbox frame (.error .queueFull, outbox)
  | done (hopen : outbox.IsOpen) (hfree : outbox.used < outbox.capacity) :
      Tries outbox frame (.ok (), outbox.append frame)

theorem tries_trySend (outbox : Outbox) (frame : Frame) :
    outbox.Tries frame (outbox.trySend frame) := by
  unfold trySend
  split
  · rename_i hclosed
    refine .closed fun hopen => ?_
    rw [hopen.1, hopen.2] at hclosed
    cases hclosed
  · rename_i hclosed
    have hopen : outbox.IsOpen := by
      rwa [Bool.or_eq_true, not_or, Bool.not_eq_true, Bool.not_eq_true', Bool.not_eq_false]
        at hclosed
    split
    · rename_i hfull
      exact .full hopen (of_decide_eq_true hfull)
    · rename_i hfree
      exact .done hopen (Nat.lt_of_not_le fun hfull => hfree (decide_eq_true hfull))

theorem snd_trySend_eq_ite (outbox : Outbox) (frame : Frame) :
    (outbox.trySend frame).2 =
      if outbox.IsOpen ∧ outbox.used < outbox.capacity then outbox.append frame else outbox := by
  have htries := outbox.tries_trySend frame
  generalize outbox.trySend frame = tried at htries
  cases htries with
  | closed hclosed => rw [if_neg fun hroom => hclosed hroom.1]
  | full hopen hfull => rw [if_neg fun hroom => Nat.not_lt_of_le hfull hroom.2]
  | done hopen hfree => rw [if_pos ⟨hopen, hfree⟩]

/-- The number of frames that can be sent without waiting before any is taken out. -/
def room (outbox : Outbox) : Nat :=
  if outbox.IsOpen then outbox.capacity - outbox.used else 0

/-- A frame is put behind all others so many times. -/
def appendCopies (outbox : Outbox) (count : Nat) (frame : Frame) : Outbox :=
  { outbox with frames := outbox.frames ++ List.replicate count frame }

@[simp] theorem appendCopies_zero (outbox : Outbox) (frame : Frame) :
    outbox.appendCopies 0 frame = outbox := by
  rw [appendCopies, List.replicate_zero, List.append_nil]

theorem appendCopies_appendCopies (outbox : Outbox) (count more : Nat) (frame : Frame) :
    (outbox.appendCopies count frame).appendCopies more frame =
      outbox.appendCopies (count + more) frame := by
  simp only [appendCopies, List.append_assoc, List.replicate_append_replicate]

theorem room_appendCopies (outbox : Outbox) (count : Nat) (frame : Frame) :
    (outbox.appendCopies count frame).room = outbox.room - count := by
  have hopen : (outbox.appendCopies count frame).IsOpen ↔ outbox.IsOpen := Iff.rfl
  have hused : (outbox.appendCopies count frame).used = outbox.used + count := by
    simp only [used, appendCopies, List.length_append, List.length_replicate]
    omega
  have hcapacity : (outbox.appendCopies count frame).capacity = outbox.capacity := rfl
  simp only [room, hopen, hused, hcapacity]
  split <;> omega

theorem snd_trySend (outbox : Outbox) (frame : Frame) :
    (outbox.trySend frame).2 = outbox.appendCopies (min 1 outbox.room) frame := by
  have htries := outbox.tries_trySend frame
  generalize outbox.trySend frame = tried at htries
  cases htries with
  | closed hclosed => rw [room, if_neg hclosed, Nat.min_zero, appendCopies_zero]
  | full hopen hfull =>
      rw [room, if_pos hopen, Nat.sub_eq_zero_of_le hfull, Nat.min_zero, appendCopies_zero]
  | done hopen hfree =>
      rw [room, if_pos hopen, Nat.min_eq_left (Nat.sub_pos_of_lt hfree)]
      rfl

theorem send_of_stopped {outbox : Outbox} (hstopped : outbox.stopped = true) (sender : SenderId)
    (frame : Frame) : outbox.send sender frame = (.failed .closed, outbox) := by
  simp [send, hstopped]

theorem resume_of_stopped {outbox : Outbox} (hstopped : outbox.stopped = true) (sender : SenderId)
    (frame : Frame) : outbox.resume sender frame = (.failed .closed, outbox.leave sender) := by
  simp [resume, hstopped]

theorem trySend_of_stopped {outbox : Outbox} (hstopped : outbox.stopped = true) (frame : Frame) :
    outbox.trySend frame = (.error .closed, outbox) := by
  simp [trySend, hstopped]

end Outbox

end RoutedSession
