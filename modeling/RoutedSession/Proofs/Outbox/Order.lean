import RoutedSession.Proofs.Outbox.Acts
import RoutedSession.Session.Link

namespace RoutedSession

/-- The bytes on their way to the peer. -/
def Link.outgoing (link : Link) : Bytes :=
  link.toPeer.held.bytes

theorem Link.outgoing_write (link : Link) (slices : List Bytes) :
    (link.write slices).2.outgoing =
      match (link.write slices).1 with
      | .took count => link.outgoing ++ slices.flatten.take count
      | _ => link.outgoing := by
  unfold write
  split
  · rfl
  · simp
  · dsimp only
    split
    · simp
    · split
      · rfl
      · simp [outgoing, Pipe.put, Slices.take_eq]

theorem Link.outgoing_of_write {link after : Link} {slices : List Bytes} {written : Written} :
    Link.sink.write link slices = (written, after) →
      after.outgoing =
        match written with
        | .took count => link.outgoing ++ slices.flatten.take count
        | _ => link.outgoing := by
  intro hresult
  have hafter := link.outgoing_write slices
  rwa [show link.write slices = (written, after) from hresult] at hafter

theorem Link.outgoing_shutdown (link : Link) : (link.shutdown).2.outgoing = link.outgoing := by
  unfold shutdown
  split <;> rfl

namespace Writer

/-- What slices that were to be written have become. -/
inductive Progress.Leaves (before after slices : Bytes) : Progress → Prop where
  | finished (share : Nat) (hafter : after = before ++ slices) :
      Leaves before after slices (.finished share)
  | halted {left : List Bytes} (isBlocked : Bool)
      (hafter : after ++ left.flatten = before ++ slices) :
      Leaves before after slices (.halted left isBlocked)
  | failed (reason : StreamError) (hafter : after <+: before ++ slices) :
      Leaves before after slices (.failed reason)

theorem Progress.Leaves.behind {before after front slices : Bytes} {progress : Progress}
    (hleaves : Leaves (before ++ front) after slices progress) :
    Leaves before after (front ++ slices) progress := by
  cases hleaves with
  | finished share hafter => exact .finished share (by rw [hafter, List.append_assoc])
  | halted isBlocked hafter => exact .halted isBlocked (by rw [hafter, List.append_assoc])
  | failed reason hafter => exact .failed reason (by rwa [List.append_assoc] at hafter)

theorem leaves_writeOut (nothing : String) (share : Nat) (link : Link) (slices : List Bytes) :
    Progress.Leaves link.outgoing (writeOut Link.sink nothing share link slices).2.outgoing
      slices.flatten (writeOut Link.sink nothing share link slices).1 := by
  fun_induction writeOut Link.sink nothing share link slices with
  | case1 => rename_i hblocked; exact .halted true (by rw [Link.outgoing_of_write hblocked])
  | case2 =>
      rename_i hfailed
      refine .failed _ ?_
      rw [Link.outgoing_of_write hfailed]
      exact List.prefix_append _ _
  | case3 => rename_i htook; exact .failed _ (by simp [Link.outgoing_of_write htook])
  | case4 => exact .halted false rfl
  | case5 share link slices _ count after htook _ ih =>
      rw [Link.outgoing_of_write htook, Slices.flatten_drop] at ih
      have hbehind := ih.behind
      rwa [List.take_append_drop] at hbehind
  | case6 share link slices hnone after hflush =>
      obtain ⟨-, rfl⟩ := Prod.mk.inj hflush
      refine .finished share ?_
      rw [hasBytes_eq_true, total, Nat.not_lt, Nat.le_zero, List.length_eq_zero_iff] at hnone
      rw [hnone, List.append_nil]
  | case7 share link slices hnone after hflush =>
      obtain ⟨-, rfl⟩ := Prod.mk.inj hflush
      exact .halted true rfl
  | case8 share link slices hnone reason after hflush =>
      obtain ⟨-, rfl⟩ := Prod.mk.inj hflush
      exact .failed reason (List.prefix_append _ _)

/-- Where the bytes are that a writer has been given, of which `gone` are in the stream. Once the
writer has begun to end the stream, the others are lost. -/
inductive Holds (given gone : Bytes) : Writer → List Frame → Prop where
  | idle {frames : List Frame} (hall : gone ++ frames.flatMap Frame.bytes = given) :
      Holds given gone .idle frames
  | writing {left : List Bytes} {frames : List Frame} (isBlocked : Bool)
      (hall : gone ++ left.flatten ++ frames.flatMap Frame.bytes = given) :
      Holds given gone (.writing left isBlocked) frames
  | closing {frames : List Frame} (hpart : gone <+: given) : Holds given gone .closing frames
  | ended {frames : List Frame} (result : Except SessionError Unit) (hpart : gone <+: given) :
      Holds given gone (.ended result) frames
  | unable {frames : List Frame} (hpart : gone <+: given) : Holds given gone .unable frames

theorem Holds.gone_first {given gone : Bytes} {writer : Writer} {frames : List Frame}
    (hholds : Holds given gone writer frames) : gone <+: given := by
  cases hholds with
  | idle hall => exact ⟨_, hall⟩
  | writing isBlocked hall => exact ⟨_, (List.append_assoc _ _ _).symm.trans hall⟩
  | closing hpart => exact hpart
  | ended result hpart => exact hpart
  | unable hpart => exact hpart

/-- An act of the writer moves bytes from the queue to the stream in their order. -/
theorem Act.holds {given front : Bytes} {most : Nat} {hasSenders : Bool} {before after : Work Link}
    (hact : Act Link.sink most hasSenders before after)
    (hbefore : Holds given (front ++ before.stream.outgoing) before.writer before.outbox.frames) :
    Holds given (front ++ after.stream.outgoing) after.writer after.outbox.frames := by
  have hpart := hbefore.gone_first
  cases hact with
  | @takes outbox rest frame batch stream htaken =>
      obtain ⟨hall⟩ | _ | _ | _ | _ := hbefore
      have hframes := outbox.frames_takeUpTo most
      rw [htaken] at hframes
      rw [hframes, List.flatMap_append, ← Slices.flatten_ofFrames, ← List.append_assoc] at hall
      exact .writing false hall
  | @writes left count _ _ isBlocked outbox htook =>
      obtain _ | ⟨_, hall⟩ | _ | _ | _ := hbefore
      refine .writing false ?_
      rw [Link.outgoing_of_write htook, Slices.flatten_drop, ← List.append_assoc front,
        List.append_assoc _ (List.take _ _), List.take_append_drop]
      exact hall
  | blocks isBlocked outbox hblocked =>
      obtain _ | ⟨_, hall⟩ | _ | _ | _ := hbefore
      refine .writing true ?_
      rwa [Link.outgoing_of_write hblocked]
  | pauses left isBlocked outbox stream =>
      obtain _ | ⟨_, hall⟩ | _ | _ | _ := hbefore
      exact .writing false hall
  | @flushes left _ _ isBlocked outbox hnone hflushed =>
      obtain _ | ⟨_, hall⟩ | _ | _ | _ := hbefore
      obtain ⟨-, rfl⟩ := Prod.mk.inj hflushed
      rw [← Bool.not_eq_true, hasBytes_eq_true, total, Nat.not_lt, Nat.le_zero,
        List.length_eq_zero_iff] at hnone
      rw [hnone, List.append_nil] at hall
      exact .idle hall
  | flushBlocks isBlocked outbox hnone hblocked =>
      obtain _ | ⟨_, hall⟩ | _ | _ | _ := hbefore
      obtain ⟨-, rfl⟩ := Prod.mk.inj hblocked
      exact .writing true hall
  | writeFails isBlocked outbox hfailed =>
      refine .ended _ ?_
      rwa [Link.outgoing_of_write hfailed]
  | takesNothing isBlocked outbox htook =>
      refine .ended _ ?_
      rw [Link.outgoing_of_write htook]
      simpa using hpart
  | flushFails isBlocked outbox hnone hfailed =>
      obtain ⟨-, rfl⟩ := Prod.mk.inj hfailed
      exact .ended _ hpart
  | stops =>
      have hsame : (stop Link.sink before).stream.outgoing = before.stream.outgoing := by
        rw [stream_stop]
        exact before.stream.outgoing_shutdown
      rw [hsame]
      rcases stop_cases Link.sink before with ⟨stream, -, hstop⟩ | ⟨result, stream, -, -, hstop⟩
      · rw [hstop]
        exact .closing hpart
      · rw [hstop]
        exact .ended _ hpart

theorem holds_poll {given front : Bytes} (maxBatch : Nat) (hasSenders : Bool) (work : Work Link)
    (hbefore : Holds given (front ++ work.stream.outgoing) work.writer work.outbox.frames) :
    let after := poll Link.sink maxBatch hasSenders work
    Holds given (front ++ after.stream.outgoing) after.writer after.outbox.frames :=
  poll_of_acts (P := fun work =>
    Holds given (front ++ work.stream.outgoing) work.writer work.outbox.frames)
    (fun _ _ hact => hact.holds) hbefore

end Writer

end RoutedSession
