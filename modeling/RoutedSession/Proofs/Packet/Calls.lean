import RoutedSession.Proofs.Packet.Inverse

namespace RoutedSession

theorem Header.Refused.append {limit : Nat} {bytes : Bytes} {reason : FramingError}
    (hrefused : Refused limit bytes reason) (more : Bytes) :
    Refused limit (bytes ++ more) reason :=
  parse?_eq_error_iff.mp (parse?_append_of_error (parse?_eq_error_iff.mpr hrefused) more)

namespace PacketBuffer

/-- A call on a buffer. -/
inductive Call where
  | push (bytes : Bytes)
  | clear

/-- A buffer with what has been pushed into it since it was last cleared, and what the pushes have
returned. -/
structure Watched where
  buffer : PacketBuffer
  pushed : Bytes := []
  results : List (Except FramingError (List Packet)) := []

/-- The packets that a push returns, if it does. -/
def packetsOf : Except FramingError (List Packet) → List Packet
  | .ok packets => packets
  | .error _ => []

namespace Watched

def call (watched : Watched) : Call → Watched
  | .push bytes =>
      { buffer := (watched.buffer.push bytes).2
        pushed := watched.pushed ++ bytes
        results := watched.results ++ [(watched.buffer.push bytes).1] }
  | .clear => { buffer := watched.buffer.clear }

def returned (watched : Watched) : List Packet :=
  watched.results.flatMap packetsOf

/-- The error of the last push, if it failed. -/
def failure? (watched : Watched) : Option FramingError :=
  match watched.results.getLast? with
  | some (.error reason) => some reason
  | _ => none

end Watched

/-- What calls make of a new buffer. -/
def after (limit : Nat) (calls : List Call) : Watched :=
  calls.foldl Watched.call { buffer := .empty limit }

/-- What a buffer waits for, and that it is not there yet. -/
inductive Waits (limit : Nat) (buffer : PacketBuffer) : Prop where
  | header (hawaiting : buffer.awaiting = none) (hshort : buffer.held.size < 4)
  | payload {header : Header} (hawaiting : buffer.awaiting = some header)
      (hpositive : 1 ≤ header.length) (hmost : header.length ≤ min limit (2 ^ 24 - 1))
      (hshort : buffer.held.size < header.length)

/-- A buffer begins with a header that is refused. -/
structure Stuck (limit : Nat) (reason : FramingError) (buffer : PacketBuffer) : Prop where
  limit_eq : buffer.limit = limit
  awaiting_eq : buffer.awaiting = none
  refused : Header.Refused limit buffer.held.bytes reason

/-- What holds of a buffer with a limit on which calls have been made. -/
structure KeepsBounds (limit : Nat) (calls : List Call) : Prop where
  /-- While the last push has not failed, less is held than what is awaited. -/
  waits : (after limit calls).failure? = none → Waits limit (after limit calls).buffer
  returned_within : ∀ packet ∈ (after limit calls).returned, packet.payload.length ≤ limit
  /-- All bytes are in packets that have been returned or in the buffer, but for a header that has
  been taken out already. -/
  accounted : (after limit calls).failure? = none →
    (after limit calls).pushed.length =
      ((after limit calls).returned.map fun packet => 4 + packet.payload.length).sum +
        (after limit calls).buffer.held.size +
          if (after limit calls).buffer.awaiting.isSome then 4 else 0
  /-- Once a push has failed, the bad header stays in front, and all later ones fail likewise. -/
  stays_failed : ∀ reason, (after limit calls).failure? = some reason → ∀ pieces : List Bytes,
    Stuck limit reason (after limit (calls ++ pieces.map .push)).buffer ∧
      (after limit (calls ++ pieces.map .push)).buffer.held.bytes =
        (after limit calls).buffer.held.bytes ++ pieces.flatten ∧
      (after limit (calls ++ pieces.map .push)).results =
        (after limit calls).results ++ pieces.map fun _ => .error reason
  /-- A buffer that has been cleared is as good as new. -/
  cleared : ∀ more, after limit (calls ++ .clear :: more) = after limit more

section

variable {limit : Nat} {reason : FramingError} {buffer : PacketBuffer} {watched : Watched}

theorem Stuck.push (hstuck : Stuck limit reason buffer) (bytes : Bytes) :
    (buffer.push bytes).1 = .error reason ∧ Stuck limit reason (buffer.push bytes).2 ∧
      (buffer.push bytes).2.held.bytes = buffer.held.bytes ++ bytes := by
  have hrefused := hstuck.refused.append bytes
  obtain ⟨hfound, hlimit, hawaiting, hheld⟩ := buffer.push_eq bytes
  rw [hstuck.limit_eq, hstuck.awaiting_eq,
    cut_of_error (Header.parse?_eq_error_iff.mpr hrefused)] at hfound hawaiting hheld
  refine ⟨hfound, ⟨hlimit.trans hstuck.limit_eq, hawaiting, ?_⟩, hheld⟩
  rwa [hheld]

theorem Yields.stuck_of_push {bytes more : Bytes} {packets : List Packet} {after : PacketBuffer}
    (hyields : Yields limit bytes packets buffer)
    (hpush : buffer.push more = (.error reason, after)) : Stuck limit reason after := by
  have hstops := (hyields.divides_append more).stops
  obtain ⟨hfound, hlimit, hawaiting, hheld⟩ := buffer.push_eq more
  rw [hpush, hyields.limit_eq] at hfound hlimit hawaiting hheld
  dsimp only [Cut.before] at hfound hlimit hawaiting hheld hstops
  generalize cut limit buffer.awaiting (buffer.held.bytes ++ more) = later
    at hfound hawaiting hheld hstops
  obtain ⟨found, _ | error, awaiting, rest⟩ := later
  · cases hfound
  · obtain rfl := Except.error.inj hfound
    cases hstops with
    | malformed hparsed =>
        refine ⟨hlimit, hawaiting, ?_⟩
        rw [hheld]
        exact Header.parse?_eq_error_iff.mp hparsed

/-- How a buffer stands: either no push has failed, and it holds what is left of the bytes, or it
begins with a bad header. -/
inductive Stands (limit : Nat) (watched : Watched) : Prop where
  | going (hgood : watched.failure? = none)
      (hyields : Yields limit watched.pushed watched.returned watched.buffer)
  | failed {reason : FramingError} (hfailure : watched.failure? = some reason)
      (hstuck : Stuck limit reason watched.buffer)
      (hwithin : ∀ packet ∈ watched.returned, packet.payload.length ≤ limit)

theorem stands_new (limit : Nat) : Stands limit { buffer := .empty limit } :=
  .going rfl (yields_empty limit)

theorem Watched.returned_push (watched : Watched) (bytes : Bytes) :
    (watched.call (.push bytes)).returned =
      watched.returned ++ packetsOf (watched.buffer.push bytes).1 := by
  simp [returned, call]

theorem Watched.failure?_push (watched : Watched) (bytes : Bytes) :
    (watched.call (.push bytes)).failure? =
      match (watched.buffer.push bytes).1 with
      | .error reason => some reason
      | .ok _ => none := by
  simp only [failure?, call, List.getLast?_concat]
  cases (watched.buffer.push bytes).1 <;> rfl

theorem Stands.within (hstands : Stands limit watched) :
    ∀ packet ∈ watched.returned, packet.payload.length ≤ limit := by
  cases hstands with
  | going _ hyields => exact fun packet hmem => (hyields.divides.packets_accepted packet hmem).1
  | failed _ _ hwithin => exact hwithin

theorem Stands.limit_eq (hstands : Stands limit watched) : watched.buffer.limit = limit := by
  cases hstands with
  | going _ hyields => exact hyields.limit_eq
  | failed _ hstuck => exact hstuck.limit_eq

theorem Stands.call (hstands : Stands limit watched) (call : Call) :
    Stands limit (watched.call call) := by
  have hwithin := hstands.within
  cases call with
  | clear =>
      have hnew := stands_new limit
      rwa [← hstands.limit_eq] at hnew ⊢
  | push bytes =>
      have hreturned := watched.returned_push bytes
      have hfailure := watched.failure?_push bytes
      cases hstands with
      | going hgood hyields =>
          cases hpush : watched.buffer.push bytes with
          | mk result after =>
              rw [hpush] at hreturned hfailure
              have hafter : (watched.call (.push bytes)).buffer = after := congrArg Prod.snd hpush
              cases result with
              | ok packets =>
                  refine .going hfailure ?_
                  rw [hreturned, hafter]
                  exact hyields.push_ok hpush
              | error reason =>
                  refine .failed hfailure ?_ ?_
                  · rw [hafter]
                    exact hyields.stuck_of_push hpush
                  · rw [hreturned, packetsOf, List.append_nil]
                    exact hwithin
      | failed _ hstuck =>
          obtain ⟨herror, hstuck, -⟩ := hstuck.push bytes
          rw [herror] at hreturned hfailure
          refine .failed hfailure hstuck ?_
          rw [hreturned, packetsOf, List.append_nil]
          exact hwithin

theorem after_append (limit : Nat) (calls more : List Call) :
    after limit (calls ++ more) = more.foldl Watched.call (after limit calls) :=
  List.foldl_append

theorem stands_after (limit : Nat) (calls : List Call) : Stands limit (after limit calls) := by
  induction calls using List.reverseRecOn with
  | nil => exact stands_new limit
  | append_singleton calls call ih =>
      rw [after_append]
      exact ih.call call

theorem Stuck.pushes (hstuck : Stuck limit reason watched.buffer) (pieces : List Bytes) :
    let later := (pieces.map Call.push).foldl Watched.call watched
    Stuck limit reason later.buffer ∧
      later.buffer.held.bytes = watched.buffer.held.bytes ++ pieces.flatten ∧
      later.results = watched.results ++ pieces.map fun _ => .error reason := by
  induction pieces generalizing watched with
  | nil => simpa using hstuck
  | cons bytes rest ih =>
      obtain ⟨herror, hnext, hheld⟩ := hstuck.push bytes
      obtain ⟨hlast, hbytes, hresults⟩ := @ih (watched.call (.push bytes)) hnext
      refine ⟨hlast, ?_, ?_⟩
      · rw [List.flatten_cons, ← List.append_assoc, ← hheld]
        exact hbytes
      · have hone : (watched.call (.push bytes)).results = watched.results ++ [.error reason] :=
          congrArg (watched.results ++ [·]) herror
        rw [hone, List.append_assoc] at hresults
        exact hresults

theorem Yields.waits {bytes : Bytes} {packets : List Packet}
    (hyields : Yields limit bytes packets buffer) : Waits limit buffer := by
  obtain ⟨-, -, hawaiting, hstops⟩ := hyields.divides
  dsimp only at hawaiting hstops
  cases hsome : buffer.awaiting with
  | none =>
      rw [hsome] at hstops
      cases hstops with
      | inHeader hshort => exact .header hsome (by rwa [Pieces.length_bytes] at hshort)
  | some header =>
      obtain ⟨hlimit, hfits⟩ := hawaiting header hsome
      rw [hsome] at hstops
      cases hstops with
      | inPayload hshort =>
          rw [Pieces.length_bytes] at hshort
          exact .payload hsome (Nat.zero_lt_of_lt hshort) (le_min hlimit hfits) hshort

theorem Yields.length_eq {bytes : Bytes} {packets : List Packet}
    (hyields : Yields limit bytes packets buffer) :
    bytes.length = (packets.map fun packet => 4 + packet.payload.length).sum + buffer.held.size +
      if buffer.awaiting.isSome then 4 else 0 := by
  have hpacket (packet : Packet) : packet.bytes.length = 4 + packet.payload.length := by
    rw [Packet.bytes, List.length_append, Header.length_bytes, Header.size]
  have hleft : (leftOver buffer.awaiting buffer.held.bytes).length =
      buffer.held.size + if buffer.awaiting.isSome then 4 else 0 := by
    cases buffer.awaiting <;> simp [leftOver, Header.size, Nat.add_comm]
  rw [hyields.divides.all, List.length_append, hleft, List.length_flatMap, ← Nat.add_assoc]
  simp only [hpacket]

end

/-- A buffer never holds more than its limit allows, and once a push has failed it fails until it is
cleared. -/
theorem after_keepsBounds (limit : Nat) (calls : List Call) : KeepsBounds limit calls := by
  have hstands := stands_after limit calls
  constructor
  case waits =>
    intro hgood
    cases hstands with
    | going _ hyields => exact hyields.waits
    | failed hfailure => cases hgood.symm.trans hfailure
  case returned_within => exact hstands.within
  case accounted =>
    intro hgood
    cases hstands with
    | going _ hyields => exact hyields.length_eq
    | failed hfailure => cases hgood.symm.trans hfailure
  case stays_failed =>
    intro reason hreason pieces
    rw [after_append]
    cases hstands with
    | going hgood => cases hgood.symm.trans hreason
    | failed hfailure hstuck =>
        obtain rfl := Option.some.inj (hfailure.symm.trans hreason)
        exact hstuck.pushes pieces
  case cleared =>
    intro more
    have hnew : (after limit calls).call .clear = { buffer := .empty limit } := by
      rw [Watched.call, clear, hstands.limit_eq]
    rw [after_append, List.foldl_cons, hnew]
    rfl

/-- A packet that comes with a bad header is lost, the next push fails too, and a cleared buffer
takes packets again. -/
example :
    (after 4 [.push [4, 0, 0, 1, 7, 4, 0, 0, 5], .push []]).results =
        [.error (.tooLarge 5 4), .error (.tooLarge 5 4)] ∧
      (after 4 [.push [9, 0, 0, 0], .clear, .push [4, 0, 0, 1, 7]]).returned = [⟨.data, [7]⟩] := by
  decide +kernel

end PacketBuffer

end RoutedSession
