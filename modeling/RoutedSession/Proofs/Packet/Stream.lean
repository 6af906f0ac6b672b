import RoutedSession.Proofs.Packet.Cut

namespace RoutedSession

namespace PacketKind

theorem code_of_ofCode? {code : UInt8} {kind : PacketKind} (hkind : ofCode? code = some kind) :
    kind.code = code := by
  unfold ofCode? at hkind
  split at hkind <;> simp only [Option.some.injEq, reduceCtorEq] at hkind <;> subst hkind <;> rfl

end PacketKind

namespace Header

theorem eq_bytes_of_parse? {limit : Nat} {bytes rest : Bytes} {header : Header}
    (hparsed : parse? limit bytes = .ok (some (header, rest))) :
    bytes = header.bytes ++ rest ∧ header.length ≤ limit ∧ header.length ≤ maxLength := by
  unfold parse? at hparsed
  split at hparsed
  · rename_i code high middle low behind
    split at hparsed
    · simp at hparsed
    · rename_i kind hkind
      dsimp only at hparsed
      split at hparsed
      · rename_i hfits
        obtain ⟨rfl, rfl⟩ := by simpa using hparsed
        have hwritten : Bytes.ofNatBE 3 (Bytes.toNatBE [high, middle, low]) = [high, middle, low] :=
          Bytes.ofNatBE_toNatBE [high, middle, low]
        have hsmall : Bytes.toNatBE [high, middle, low] < 256 ^ 3 :=
          Bytes.toNatBE_lt [high, middle, low]
        refine ⟨?_, hfits, Nat.le_pred_of_lt hsmall⟩
        rw [Header.bytes, PacketKind.code_of_ofCode? hkind, hwritten]
        rfl
      · simp at hparsed
  · simp at hparsed

theorem short_of_parse? {limit : Nat} {bytes : Bytes} (hparsed : parse? limit bytes = .ok none) :
    bytes.length < size := by
  unfold parse? at hparsed
  split at hparsed
  · split at hparsed
    · cases hparsed
    · dsimp only at hparsed
      split at hparsed <;> simp at hparsed
  · rename_i hshort
    rw [size]
    by_contra hlong
    rcases bytes with _ | ⟨code, _ | ⟨high, _ | ⟨middle, _ | ⟨low, rest⟩⟩⟩⟩
    case cons.cons.cons.cons => exact hshort code high middle low rest rfl
    all_goals simp at hlong

theorem parse?_append_of_error {limit : Nat} {bytes : Bytes} {reason : FramingError}
    (hparsed : parse? limit bytes = .error reason) (more : Bytes) :
    parse? limit (bytes ++ more) = .error reason := by
  unfold parse? at hparsed
  split at hparsed
  · rename_i code high middle low behind
    simp only [List.cons_append, parse?]
    split at hparsed
    · exact hparsed
    · dsimp only at hparsed ⊢
      split at hparsed
      · cases hparsed
      · rename_i hlong
        rw [if_neg hlong]
        exact hparsed
  · cases hparsed

end Header

namespace PacketBuffer

/-- Where a cut stops. -/
inductive Stops (limit : Nat) : Option FramingError → Option Header → Bytes → Prop where
  | malformed {reason : FramingError} {rest : Bytes}
      (hparsed : Header.parse? limit rest = .error reason) : Stops limit (some reason) none rest
  | inHeader {rest : Bytes} (hshort : rest.length < Header.size) : Stops limit none none rest
  | inPayload {header : Header} {rest : Bytes} (hshort : rest.length < header.length) :
      Stops limit none (some header) rest

def Accepts (limit length : Nat) : Prop :=
  length ≤ limit ∧ length ≤ Header.maxLength

/-- A header that may be awaited, and the bytes behind it. -/
def leftOver (awaiting : Option Header) (rest : Bytes) : Bytes :=
  awaiting.elim [] Header.bytes ++ rest

/-- Bytes are packets one behind the other, and behind them what the cut has stopped at. -/
structure Divides (limit : Nat) (bytes : Bytes) (cut : Cut) : Prop where
  all : bytes = cut.packets.flatMap Packet.bytes ++ leftOver cut.awaiting cut.rest
  packets_accepted : ∀ packet ∈ cut.packets, Accepts limit packet.payload.length
  awaiting_accepted : ∀ header ∈ cut.awaiting, Accepts limit header.length
  stops : Stops limit cut.failure cut.awaiting cut.rest

theorem Divides.cons {limit : Nat} {header : Header} {payload bytes : Bytes} {cut : Cut}
    (hdivides : Divides limit bytes cut) (hlength : payload.length = header.length)
    (haccepted : Accepts limit header.length) :
    Divides limit (header.bytes ++ (payload ++ bytes)) (cut.cons ⟨header.kind, payload⟩) where
  all := by
    have hpacket : Packet.bytes ⟨header.kind, payload⟩ = header.bytes ++ payload := by
      rw [Packet.bytes, Packet.header, hlength]
    rw [hdivides.all, Cut.cons, List.flatMap_cons, hpacket]
    simp only [List.append_assoc]
  packets_accepted := by
    intro packet hmem
    rcases List.mem_cons.mp hmem with rfl | hmem
    · rwa [hlength]
    · exact hdivides.packets_accepted packet hmem
  awaiting_accepted := hdivides.awaiting_accepted
  stops := hdivides.stops

theorem divides_cut {limit : Nat} {awaiting : Option Header} (bytes : Bytes)
    (hawaiting : ∀ header ∈ awaiting, Accepts limit header.length) :
    Divides limit (leftOver awaiting bytes) (cut limit awaiting bytes) := by
  fun_induction cut limit awaiting bytes with
  | case1 bytes header hcomplete ih =>
      rw [Bytes.hasAtLeast_eq_true] at hcomplete
      have hdivides := (ih (by simp)).cons (List.length_take_of_le hcomplete) (hawaiting header rfl)
      rw [leftOver, Option.elim_none, List.nil_append, List.take_append_drop] at hdivides
      exact hdivides
  | case2 bytes header hshort =>
      rw [Bytes.hasAtLeast_eq_true, Nat.not_le] at hshort
      exact ⟨rfl, by simp, hawaiting, .inPayload hshort⟩
  | case3 bytes reason hparsed => exact ⟨rfl, by simp, by simp, .malformed hparsed⟩
  | case4 bytes hparsed =>
      exact ⟨rfl, by simp, by simp, .inHeader (Header.short_of_parse? hparsed)⟩
  | case5 bytes header rest hparsed ih =>
      obtain ⟨rfl, haccepted⟩ := Header.eq_bytes_of_parse? hparsed
      refine ih ?_
      rintro _ ⟨⟩
      exact haccepted

theorem cut_append_of_failure {limit : Nat} {awaiting : Option Header} {bytes : Bytes}
    {reason : FramingError} (hfailure : (cut limit awaiting bytes).failure = some reason)
    (more : Bytes) :
    cut limit awaiting (bytes ++ more) =
      { cut limit awaiting bytes with rest := (cut limit awaiting bytes).rest ++ more } := by
  fun_induction cut limit awaiting bytes with
  | case1 bytes header hcomplete ih =>
      rw [Bytes.hasAtLeast_eq_true] at hcomplete
      have hlonger : header.length ≤ (bytes ++ more).length := by
        rw [List.length_append]
        exact Nat.le_add_right_of_le hcomplete
      rw [cut_of_complete limit hlonger, List.drop_append_of_le_length hcomplete,
        List.take_append_of_le_length hcomplete, ih hfailure]
      rfl
  | case2 => cases hfailure
  | case3 bytes error hparsed =>
      have hagain := Header.parse?_append_of_error hparsed more
      rw [cut]
      split <;> simp_all
  | case4 => cases hfailure
  | case5 bytes header rest hparsed ih =>
      rw [cut_of_parsed (Header.parse?_append hparsed more)]
      exact ih hfailure

/-- What a buffer makes of pieces that are pushed in turn, up to the first one that cannot be cut:
the packets that the pushes return, and the buffer behind them or the error. -/
def pushAll (buffer : PacketBuffer) : List Bytes → List Packet × Except FramingError PacketBuffer
  | [] => ([], .ok buffer)
  | bytes :: rest =>
      match buffer.push bytes with
      | (.error reason, _) => ([], .error reason)
      | (.ok packets, buffer) =>
          let (more, result) := pushAll buffer rest
          (packets ++ more, result)

/-- How pushing pieces ends, if all bytes at once would be cut so. -/
inductive Ends (limit : Nat) (whole : Cut) :
    List Packet × Except FramingError PacketBuffer → Prop where
  | complete {buffer : PacketBuffer} (hgood : whole.failure = none) (hlimit : buffer.limit = limit)
      (hawaiting : buffer.awaiting = whole.awaiting) (hheld : buffer.held.bytes = whole.rest) :
      Ends limit whole (whole.packets, .ok buffer)
  | failed {packets : List Packet} {reason : FramingError} (hfailure : whole.failure = some reason)
      (hfirst : packets <+: whole.packets) : Ends limit whole (packets, .error reason)

theorem Ends.before {limit : Nat} {whole : Cut}
    {result : List Packet × Except FramingError PacketBuffer} (hends : Ends limit whole result)
    (front : Cut) : Ends limit (front.before whole) (front.packets ++ result.1, result.2) := by
  cases hends with
  | complete hgood hlimit hawaiting hheld => exact .complete hgood hlimit hawaiting hheld
  | failed hfailure hfirst =>
      exact .failed hfailure ((List.prefix_append_right_inj front.packets).mpr hfirst)

/-- Pushing pieces in turn comes to the same as cutting all their bytes at once, but for the packets
that are lost with the push that fails. -/
theorem ends_pushAll {buffer : PacketBuffer}
    (hsettled : cut buffer.limit buffer.awaiting buffer.held.bytes =
      ⟨[], none, buffer.awaiting, buffer.held.bytes⟩) (pieces : List Bytes) :
    Ends buffer.limit (cut buffer.limit buffer.awaiting (buffer.held.bytes ++ pieces.flatten))
      (pushAll buffer pieces) := by
  -- On the pieces; every push that succeeds leaves a buffer behind in which no packet is complete.
  induction pieces generalizing buffer with
  | nil =>
      rw [List.flatten_nil, List.append_nil, hsettled]
      exact .complete rfl rfl rfl rfl
  | cons bytes rest ih =>
      obtain ⟨hfound, hlimit, hawaiting, hheld⟩ := buffer.push_eq bytes
      rw [List.flatten_cons, ← List.append_assoc]
      unfold pushAll
      cases hfailure : (cut buffer.limit buffer.awaiting (buffer.held.bytes ++ bytes)).failure with
      | some reason =>
          simp only [ofCut, hfailure] at hfound
          rw [cut_append_of_failure hfailure]
          split
          · rename_i error after hpush
            rw [hpush] at hfound
            obtain rfl := Except.error.inj hfound
            exact .failed hfailure List.nil_prefix
          · rename_i packets after hpush
            rw [hpush] at hfound
            cases hfound
      | none =>
          simp only [ofCut, hfailure] at hfound
          rw [cut_append hfailure]
          split
          · rename_i error after hpush
            rw [hpush] at hfound
            cases hfound
          · rename_i packets after hpush
            rw [hpush] at hfound hlimit hawaiting hheld
            dsimp only at hfound hlimit hawaiting hheld
            obtain rfl := Except.ok.inj hfound
            have hlater := cut_left_over hfailure
            rw [← hawaiting, ← hheld, ← hlimit] at hlater
            have hends := (ih hlater).before
              (cut buffer.limit buffer.awaiting (buffer.held.bytes ++ bytes))
            rwa [hlimit, hawaiting, hheld] at hends

/-- What two ways of pushing the bytes of a stream come to. Either all pushes succeed, and the
packets and what is left over are the same, or a push fails, with the same error, and the packets
returned before it are the first ones of those that the stream has before its bad header. -/
inductive Agree (limit : Nat) (stream : Bytes) :
    (one other : List Packet × Except FramingError PacketBuffer) → Prop where
  | complete {packets : List Packet} {one other : PacketBuffer}
      (hdivides : Divides limit stream ⟨packets, none, one.awaiting, one.held.bytes⟩)
      (hlimit : one.limit = limit ∧ other.limit = limit)
      (hawaiting : other.awaiting = one.awaiting) (hheld : other.held.bytes = one.held.bytes) :
      Agree limit stream (packets, .ok one) (packets, .ok other)
  | malformed {packets one other : List Packet} {reason : FramingError} {rest : Bytes}
      (hdivides : Divides limit stream ⟨packets, some reason, none, rest⟩)
      (hone : one <+: packets) (hother : other <+: packets) :
      Agree limit stream (one, .error reason) (other, .error reason)

/-- A new buffer makes the same of all pieces that make up one stream. -/
theorem pushAll_agree (limit : Nat) {one other : List Bytes} (hsame : one.flatten = other.flatten) :
    Agree limit one.flatten (pushAll (.empty limit) one) (pushAll (.empty limit) other) := by
  have hsettled : cut limit none [] = ⟨[], none, none, []⟩ := cut_of_short (by decide)
  have hdivides : Divides limit (leftOver none one.flatten) (cut limit none one.flatten) :=
    divides_cut one.flatten (by simp)
  change Divides limit one.flatten _ at hdivides
  have hpushed (pieces : List Bytes) :
      Ends limit (cut limit none pieces.flatten) (pushAll (.empty limit) pieces) :=
    @ends_pushAll (.empty limit) hsettled pieces
  have hone := hpushed one
  have hother := hpushed other
  rw [← hsame] at hother
  generalize cut limit none one.flatten = whole at hdivides hone hother
  generalize pushAll (.empty limit) one = first at hone ⊢
  generalize pushAll (.empty limit) other = second at hother ⊢
  obtain ⟨packets, failure, awaiting, rest⟩ := whole
  cases hone with
  | complete hgood hlimit hawaiting hheld =>
      cases hother with
      | complete _ hlimit' hawaiting' hheld' =>
          dsimp only at hgood hawaiting hheld hawaiting' hheld'
          subst hgood hawaiting hheld
          exact .complete hdivides ⟨hlimit, hlimit'⟩ hawaiting' hheld'
      | failed hfailure => cases hgood.symm.trans hfailure
  | failed hfailure hfirst =>
      cases hother with
      | complete hgood => cases hgood.symm.trans hfailure
      | failed hfailure' hfirst' =>
          dsimp only at hfailure hfailure'
          subst hfailure
          obtain rfl := Option.some.inj hfailure'
          obtain ⟨-, -, -, hstops⟩ := id hdivides
          cases hstops
          exact .malformed hdivides hfirst hfirst'

/-- A push that fails loses the packet that came with it. -/
theorem pushAll_agree_badHeader :
    [[4, 0, 0, 1, 7], [9, 0, 0, 0]].flatten = [[4, 0, 0, 1, 7, 9, 0, 0, 0]].flatten ∧
      Agree 16 [4, 0, 0, 1, 7, 9, 0, 0, 0]
        (pushAll (.empty 16) [[4, 0, 0, 1, 7], [9, 0, 0, 0]])
        (pushAll (.empty 16) [[4, 0, 0, 1, 7, 9, 0, 0, 0]]) ∧
      (pushAll (.empty 16) [[4, 0, 0, 1, 7], [9, 0, 0, 0]]).1 = [⟨.data, [7]⟩] ∧
      (pushAll (.empty 16) [[4, 0, 0, 1, 7, 9, 0, 0, 0]]).1 = [] :=
  ⟨rfl, @pushAll_agree 16 [[4, 0, 0, 1, 7], [9, 0, 0, 0]] [[4, 0, 0, 1, 7, 9, 0, 0, 0]] rfl,
    by decide +kernel, by decide +kernel⟩

end PacketBuffer

end RoutedSession
