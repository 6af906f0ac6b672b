import RoutedSession.Proofs.Packet.Inverse

namespace RoutedSession.PacketBuffer

/-- A buffer that no complete packet is in. -/
def Settled (buffer : PacketBuffer) : Prop :=
  cut buffer.limit buffer.awaiting buffer.held.bytes =
    ⟨[], none, buffer.awaiting, buffer.held.bytes⟩

/-- What there is in the bytes of a stream, those in the buffer in front of them. -/
def cutAll (buffer : PacketBuffer) (bytes : Bytes) : Cut :=
  cut buffer.limit buffer.awaiting (buffer.held.bytes ++ bytes)

/-- The pushes return every packet that there is, up to a bad header. -/
def ReturnsAll (buffer : PacketBuffer) (pieces : List Bytes) : Prop :=
  (pushAll buffer pieces).1 = (buffer.cutAll pieces.flatten).packets

section

variable {limit : Nat} {buffer : PacketBuffer}

theorem Settled.ends_pushAll (hsettled : buffer.Settled) (pieces : List Bytes) :
    Ends buffer.limit (buffer.cutAll pieces.flatten) (pushAll buffer pieces) :=
  PacketBuffer.ends_pushAll hsettled pieces

theorem settled_of_push {after : PacketBuffer} {packets : List Packet} {bytes : Bytes}
    (hpush : buffer.push bytes = (.ok packets, after)) :
    after.Settled ∧ (buffer.cutAll bytes).failure = none ∧
      packets = (buffer.cutAll bytes).packets ∧ ∀ more,
        buffer.cutAll (bytes ++ more) = (buffer.cutAll bytes).before (after.cutAll more) := by
  obtain ⟨hfound, hlimit, hawaiting, hheld⟩ := buffer.push_eq bytes
  rw [hpush] at hfound hlimit hawaiting hheld
  dsimp only at hfound hlimit hawaiting hheld
  change after.awaiting = (buffer.cutAll bytes).awaiting at hawaiting
  change after.held.bytes = (buffer.cutAll bytes).rest at hheld
  have hgood : (buffer.cutAll bytes).failure = none := by
    cases hfailure : (buffer.cutAll bytes).failure with
    | none => rfl
    | some reason =>
        rw [cutAll] at hfailure
        rw [ofCut, hfailure] at hfound
        cases hfound
  have hpackets : packets = (buffer.cutAll bytes).packets := by
    rw [cutAll] at hgood
    rw [ofCut, hgood] at hfound
    exact Except.ok.inj hfound
  refine ⟨?_, hgood, hpackets, fun more => ?_⟩
  · rw [Settled, hlimit, hawaiting, hheld]
    exact cut_left_over hgood
  · change _ = (buffer.cutAll bytes).before
      (cut after.limit after.awaiting (after.held.bytes ++ more))
    rw [hlimit, hawaiting, hheld, cutAll, ← List.append_assoc]
    exact cut_append hgood more

/-- A push fails at a bad header, and nothing behind it is looked at. -/
theorem failure_of_push {after : PacketBuffer} {reason : FramingError} {bytes : Bytes}
    (hpush : buffer.push bytes = (.error reason, after)) :
    (buffer.cutAll bytes).failure = some reason ∧
      ∀ more, buffer.cutAll (bytes ++ more) =
        { buffer.cutAll bytes with rest := (buffer.cutAll bytes).rest ++ more } := by
  have hfound := (buffer.push_eq bytes).1
  rw [hpush] at hfound
  have hfailure : (buffer.cutAll bytes).failure = some reason := by
    rw [cutAll]
    unfold ofCut at hfound
    split at hfound
    · rename_i error hbad
      rw [hbad, Except.error.inj hfound]
    · cases hfound
  refine ⟨hfailure, fun more => ?_⟩
  rw [cutAll, ← List.append_assoc]
  exact cut_append_of_failure hfailure more

theorem Settled.cutAll_nil (hsettled : buffer.Settled) :
    buffer.cutAll [] = ⟨[], none, buffer.awaiting, buffer.held.bytes⟩ := by
  rw [cutAll, List.append_nil]
  exact hsettled

theorem Settled.returnsAll (hsettled : buffer.Settled) {pieces : List Bytes}
    (hgood : (buffer.cutAll pieces.flatten).failure = none) : buffer.ReturnsAll pieces := by
  have hends := hsettled.ends_pushAll pieces
  rw [ReturnsAll]
  generalize pushAll buffer pieces = result at hends ⊢
  cases hends with
  | complete => rfl
  | failed hfailure => cases hgood.symm.trans hfailure

theorem Settled.exists_pushAll_eq (hsettled : buffer.Settled) {pieces : List Bytes}
    {reason : FramingError} (hfailure : (buffer.cutAll pieces.flatten).failure = some reason) :
    ∃ front bytes rest, pieces = front ++ bytes :: rest ∧
      (buffer.cutAll front.flatten).failure = none ∧
      (buffer.cutAll (front.flatten ++ bytes)).failure = some reason ∧
      pushAll buffer pieces = ((buffer.cutAll front.flatten).packets, .error reason) := by
  induction pieces generalizing buffer with
  | nil =>
      rw [List.flatten_nil, hsettled.cutAll_nil] at hfailure
      cases hfailure
  | cons bytes rest ih =>
      rw [List.flatten_cons] at hfailure
      rw [pushAll]
      split
      · rename_i error after hpush
        obtain ⟨hbad, hsame⟩ := failure_of_push hpush
        rw [hsame] at hfailure
        dsimp only at hfailure
        rw [hbad] at hfailure
        obtain rfl := Option.some.inj hfailure
        refine ⟨[], bytes, rest, rfl, ?_, hbad, ?_⟩ <;> rw [List.flatten_nil, hsettled.cutAll_nil]
      · rename_i packets after hpush
        obtain ⟨hafter, -, rfl, happend⟩ := settled_of_push hpush
        rw [happend] at hfailure
        obtain ⟨front, last, others, rfl, hgood, hbad, hpushed⟩ := ih hafter hfailure
        refine ⟨bytes :: front, last, others, rfl, ?_, ?_, ?_⟩
        · rw [List.flatten_cons, happend]
          exact hgood
        · rw [List.flatten_cons, List.append_assoc, happend]
          exact hbad
        · rw [hpushed, List.flatten_cons, happend]
          rfl

theorem failure_cut_of_short {header : Header} {bytes : Bytes}
    (hshort : bytes.length < header.length + Header.size) :
    (cut limit (some header) bytes).failure = none := by
  by_cases hcomplete : header.length ≤ bytes.length
  · have hrest : (bytes.drop header.length).length < Header.size := by
      rw [List.length_drop]
      omega
    rw [cut_of_complete limit hcomplete, cut_of_short hrest]
    rfl
  · rw [cut_of_incomplete limit (Nat.lt_of_not_le hcomplete)]

theorem Settled.packets_of_failure (hsettled : buffer.Settled) {bytes : Bytes}
    (hsmall : bytes.length ≤ Header.size) {reason : FramingError}
    (hfailure : (buffer.cutAll bytes).failure = some reason) :
    (buffer.cutAll bytes).packets = [] := by
  unfold Settled at hsettled
  unfold cutAll at hfailure ⊢
  cases hawaiting : buffer.awaiting with
  | some header =>
      rw [hawaiting] at hsettled hfailure
      have hpart : buffer.held.bytes.length < header.length := by
        by_contra hcomplete
        rw [cut_of_complete _ (Nat.le_of_not_lt hcomplete)] at hsettled
        cases congrArg Cut.packets hsettled
      rw [failure_cut_of_short (by rw [List.length_append]; omega)] at hfailure
      cases hfailure
  | none =>
      rw [hawaiting] at hsettled hfailure
      have hstops := (divides_cut_none buffer.limit buffer.held.bytes).stops
      rw [hsettled] at hstops
      obtain _ | ⟨hpart⟩ := hstops
      change buffer.held.bytes.length < Header.size at hpart
      rw [cut] at hfailure ⊢
      split at hfailure
      · rfl
      · cases hfailure
      · rename_i header rest hparsed
        have hlength := Header.length_of_parse? hparsed
        rw [List.length_append] at hlength
        rw [failure_cut_of_short (by omega)] at hfailure
        cases hfailure

theorem Settled.returnsAll_of_small (hsettled : buffer.Settled) {pieces : List Bytes}
    (hsmall : ∀ bytes ∈ pieces, bytes.length ≤ Header.size) : buffer.ReturnsAll pieces := by
  unfold ReturnsAll
  induction pieces generalizing buffer with
  | nil =>
      rw [List.flatten_nil, hsettled.cutAll_nil]
      rfl
  | cons bytes rest ih =>
      obtain ⟨hfirst, hrest⟩ := List.forall_mem_cons.mp hsmall
      rw [List.flatten_cons, pushAll]
      split
      · rename_i reason after hpush
        obtain ⟨hfailure, hsame⟩ := failure_of_push hpush
        rw [hsame]
        exact (hsettled.packets_of_failure hfirst hfailure).symm
      · rename_i packets after hpush
        obtain ⟨hafter, -, rfl, happend⟩ := settled_of_push hpush
        rw [happend]
        exact congrArg ((buffer.cutAll bytes).packets ++ ·) (ih hafter hrest)

end

end RoutedSession.PacketBuffer
