import RoutedSession.Packet.Buffer
import RoutedSession.Proofs.Bytes

/-!
Packets that are written one behind the other are found again, in whatever pieces their bytes
arrive, and of the bytes seen so far every packet is found that is complete.
-/

namespace RoutedSession

namespace Header

theorem parse?_append {limit : Nat} {bytes rest : Bytes} {header : Header}
    (hparsed : parse? limit bytes = .ok (some (header, rest))) (more : Bytes) :
    parse? limit (bytes ++ more) = .ok (some (header, rest ++ more)) := by
  unfold parse? at hparsed
  split at hparsed
  · rename_i code high middle low behind
    simp only [List.cons_append, parse?]
    split at hparsed
    · simp at hparsed
    · rename_i kind hkind
      dsimp only at hparsed ⊢
      split at hparsed
      · rename_i hfits
        obtain ⟨rfl, rfl⟩ := by simpa using hparsed
        simp [hfits]
      · simp at hparsed
  · simp at hparsed

theorem parse?_bytes {limit : Nat} (header : Header) (hfits : header.length ≤ maxLength)
    (hlimit : header.length ≤ limit) (rest : Bytes) :
    parse? limit (header.bytes ++ rest) = .ok (some (header, rest)) := by
  have hlength : Bytes.toNatBE (Bytes.ofNatBE 3 header.length) = header.length := by
    have hsmall : header.length < 256 ^ 3 := Nat.lt_succ_of_le hfits
    rw [Bytes.toNatBE_ofNatBE, Nat.mod_eq_of_lt hsmall]
  simp only [bytes, Bytes.ofNatBE, List.cons_append, List.nil_append, parse?,
    PacketKind.ofCode?_code] at hlength ⊢
  rw [hlength, if_pos hlimit]

theorem parse?_of_short {limit : Nat} {bytes : Bytes} (hshort : bytes.length < size) :
    parse? limit bytes = .ok none := by
  unfold parse?
  split
  · simp only [List.length_cons, size] at hshort
    omega
  · rfl

@[simp] theorem length_bytes (header : Header) : header.bytes.length = size := by
  simp [bytes, size]

end Header

theorem Packet.encode_eq_ok_iff {packet : Packet} {bytes : Bytes} :
    packet.encode = .ok bytes ↔
      packet.payload.length ≤ Header.maxLength ∧ bytes = packet.bytes := by
  unfold Packet.encode Header.encode Packet.bytes
  split
  · rename_i hfits
    simp only [Except.map, Except.ok.injEq]
    exact ⟨fun hbytes => ⟨hfits, hbytes.symm⟩, fun hbytes => hbytes.2.symm⟩
  · rename_i hlong
    simp only [Except.map, reduceCtorEq, false_iff, not_and]
    exact fun hfits => absurd hfits hlong

namespace PacketBuffer

theorem cut_of_complete (limit : Nat) {header : Header} {bytes : Bytes}
    (hcomplete : header.length ≤ bytes.length) :
    cut limit (some header) bytes =
      (cut limit none (bytes.drop header.length)).cons
        ⟨header.kind, bytes.take header.length⟩ := by
  rw [cut, if_pos (Bytes.hasAtLeast_eq_true.mpr hcomplete)]

theorem cut_of_parsed {limit : Nat} {bytes rest : Bytes} {header : Header}
    (hparsed : Header.parse? limit bytes = .ok (some (header, rest))) :
    cut limit none bytes = cut limit (some header) rest := by
  rw [cut.eq_def limit none]
  dsimp only
  split <;> simp_all

theorem cut_of_short {limit : Nat} {bytes : Bytes} (hshort : bytes.length < Header.size) :
    cut limit none bytes = ⟨[], none, none, bytes⟩ := by
  have hparsed := @Header.parse?_of_short limit _ hshort
  rw [cut]
  split <;> simp_all

/-- What is found in bytes and in those that arrive behind them, cut together with what was left
over. -/
def Cut.before (front back : Cut) : Cut :=
  { back with packets := front.packets ++ back.packets }

/-- It makes no difference whether bytes are cut at once, or the first of them before the others. -/
theorem cut_append {limit : Nat} {awaiting : Option Header} {bytes : Bytes}
    (hgood : (cut limit awaiting bytes).failure = none) (more : Bytes) :
    cut limit awaiting (bytes ++ more) =
      (cut limit awaiting bytes).before
        (cut limit (cut limit awaiting bytes).awaiting
          ((cut limit awaiting bytes).rest ++ more)) := by
  fun_induction cut limit awaiting bytes with
  | case1 bytes header hcomplete ih =>
      rw [Bytes.hasAtLeast_eq_true] at hcomplete
      have hlonger : header.length ≤ (bytes ++ more).length := by
        rw [List.length_append]
        exact Nat.le_add_right_of_le hcomplete
      rw [cut_of_complete limit hlonger, List.drop_append_of_le_length hcomplete,
        List.take_append_of_le_length hcomplete, ih hgood]
      rfl
  | case2 => rfl
  | case3 => cases hgood
  | case4 => rfl
  | case5 bytes header rest hparsed ih =>
      rw [cut_of_parsed (Header.parse?_append hparsed more), ih hgood]

theorem cut_left_over {limit : Nat} {awaiting : Option Header} {bytes : Bytes}
    (hgood : (cut limit awaiting bytes).failure = none) :
    cut limit (cut limit awaiting bytes).awaiting (cut limit awaiting bytes).rest =
      ⟨[], none, (cut limit awaiting bytes).awaiting, (cut limit awaiting bytes).rest⟩ := by
  have hagain := cut_append hgood []
  rw [List.append_nil, List.append_nil] at hagain
  generalize cut limit awaiting bytes = first at hgood hagain ⊢
  generalize cut limit first.awaiting first.rest = second at hagain ⊢
  obtain ⟨packets, failure, awaiting, rest⟩ := second
  rw [hagain, Cut.before] at hgood
  rw [Cut.before] at hagain
  have hpackets := congrArg Cut.packets hagain
  have hawaiting := congrArg Cut.awaiting hagain
  have hrest := congrArg Cut.rest hagain
  dsimp only at hgood hpackets hawaiting hrest
  rw [List.self_eq_append_right] at hpackets
  rw [hgood, hpackets, hawaiting, hrest]

section

variable {limit : Nat} {packet : Packet}

theorem cut_packet (hfits : packet.payload.length ≤ Header.maxLength)
    (hlimit : packet.payload.length ≤ limit) (rest : Bytes) :
    cut limit none (packet.bytes ++ rest) = (cut limit none rest).cons packet := by
  have hparsed := Header.parse?_bytes packet.header hfits hlimit (packet.payload ++ rest)
  have hcomplete : packet.header.length ≤ (packet.payload ++ rest).length := by
    rw [List.length_append]
    exact Nat.le_add_right _ _
  rw [Packet.bytes, List.append_assoc, cut_of_parsed hparsed, cut_of_complete limit hcomplete]
  simp [Packet.header]

theorem cut_incomplete (hfits : packet.payload.length ≤ Header.maxLength)
    (hlimit : packet.payload.length ≤ limit) {bytes : Bytes} (hpart : bytes <+: packet.bytes)
    (hshort : bytes.length < packet.bytes.length) :
    ∃ awaiting rest, cut limit none bytes = ⟨[], none, awaiting, rest⟩ := by
  by_cases hheader : bytes.length < Header.size
  · exact ⟨none, bytes, cut_of_short hheader⟩
  · have hsplit : packet.header.bytes <+: bytes := by
      refine List.prefix_of_prefix_length_le (List.prefix_append _ packet.payload) hpart ?_
      rw [Header.length_bytes]
      exact Nat.le_of_not_lt hheader
    obtain ⟨rest, rfl⟩ := hsplit
    have hmissing : rest.length < packet.header.length := by
      simpa [Packet.bytes, Packet.header] using hshort
    rw [cut_of_parsed (Header.parse?_bytes packet.header hfits hlimit rest),
      cut_of_incomplete limit hmissing]
    exact ⟨_, _, rfl⟩

end

/-- Which packets of several are complete in the bytes that have arrived. -/
structure Complete (packets found : List Packet) (bytes : Bytes) : Prop where
  found_first : found <+: packets
  found_arrived : found.flatMap Packet.bytes <+: bytes
  found_all : ∀ front, front <+: packets → (front.flatMap Packet.bytes).length ≤ bytes.length →
    front <+: found

theorem complete_nil (packets : List Packet) : Complete packets [] [] := by
  refine ⟨List.nil_prefix, List.nil_prefix, fun front hfront hlength => ?_⟩
  cases front with
  | nil => exact List.nil_prefix
  | cons first front =>
      rw [List.flatMap_cons, List.length_append, Packet.bytes, List.length_append,
        Header.length_bytes, Header.size] at hlength
      exact absurd hlength (by simp)

theorem cut_packets {limit : Nat} {packets : List Packet} {bytes : Bytes}
    (hfit : ∀ packet ∈ packets, packet.payload.length ≤ Header.maxLength)
    (hlimit : ∀ packet ∈ packets, packet.payload.length ≤ limit)
    (hpart : bytes <+: packets.flatMap Packet.bytes) :
    (cut limit none bytes).failure = none ∧
      Complete packets (cut limit none bytes).packets bytes := by
  induction packets generalizing bytes with
  | nil =>
      rw [List.flatMap_nil, List.prefix_nil] at hpart
      subst hpart
      rw [cut_of_short (by decide)]
      exact ⟨rfl, List.prefix_refl _, List.prefix_refl _, fun front hfront _ => hfront⟩
  | cons packet packets ih =>
      have hfits := hfit packet List.mem_cons_self
      have hshort := hlimit packet List.mem_cons_self
      rw [List.flatMap_cons] at hpart
      -- Either the first packet is there and is cut off, or nothing is cut at all.
      by_cases hcomplete : packet.bytes.length ≤ bytes.length
      · obtain ⟨rest, rfl⟩ :=
          List.prefix_of_prefix_length_le (List.prefix_append _ _) hpart hcomplete
        rw [List.prefix_append_right_inj] at hpart
        obtain ⟨hgood, hfirst, harrived, hall⟩ :=
          ih (fun packet hmem => hfit packet (List.mem_cons_of_mem _ hmem))
            (fun packet hmem => hlimit packet (List.mem_cons_of_mem _ hmem)) hpart
        rw [cut_packet hfits hshort]
        refine ⟨hgood, (List.prefix_cons_inj packet).mpr hfirst, ?_, ?_⟩
        · exact (List.prefix_append_right_inj packet.bytes).mpr harrived
        · intro front hfront hlength
          cases front with
          | nil => exact List.nil_prefix
          | cons first front =>
              obtain ⟨rfl, hmore⟩ := List.cons_prefix_cons.mp hfront
              rw [List.flatMap_cons, List.length_append, List.length_append] at hlength
              exact (List.prefix_cons_inj first).mpr
                (hall front hmore (Nat.le_of_add_le_add_left hlength))
      · rw [Nat.not_le] at hcomplete
        have hfirst := List.prefix_of_prefix_length_le hpart (List.prefix_append _ _)
          (Nat.le_of_lt hcomplete)
        obtain ⟨awaiting, rest, hcut⟩ :=
          cut_incomplete hfits hshort hfirst hcomplete
        rw [hcut]
        refine ⟨rfl, List.nil_prefix, List.nil_prefix, ?_⟩
        intro front hfront hlength
        cases front with
        | nil => exact List.prefix_refl _
        | cons first front =>
            obtain ⟨rfl, -⟩ := List.cons_prefix_cons.mp hfront
            rw [List.flatMap_cons, List.length_append] at hlength
            exact absurd hlength (by omega)

/-- The packets found in bytes that arrive in pieces, unless a piece cannot be cut. -/
def feed (buffer : PacketBuffer) : List Bytes → Except FramingError (List Packet)
  | [] => .ok []
  | bytes :: rest =>
      match buffer.push bytes with
      | (.error reason, _) => .error reason
      | (.ok packets, buffer) => (feed buffer rest).map (packets ++ ·)

theorem feed_eq {buffer : PacketBuffer} {pieces : List Bytes}
    (hsettled : cut buffer.limit buffer.awaiting buffer.held.bytes =
      ⟨[], none, buffer.awaiting, buffer.held.bytes⟩)
    (hgood : ∀ front, front <+: pieces.flatten →
      (cut buffer.limit buffer.awaiting (buffer.held.bytes ++ front)).failure = none) :
    feed buffer pieces =
      .ok (cut buffer.limit buffer.awaiting (buffer.held.bytes ++ pieces.flatten)).packets := by
  induction pieces generalizing buffer with
  | nil =>
      rw [List.flatten_nil, List.append_nil, hsettled]
      rfl
  | cons bytes rest ih =>
      have hfirst := hgood bytes (List.prefix_append _ _)
      obtain ⟨hfound, hlimit, hawaiting, hheld⟩ := buffer.push_eq bytes
      rw [List.flatten_cons, ← List.append_assoc, cut_append hfirst]
      unfold feed
      split
      · rename_i reason after hpush
        rw [hpush, ofCut, hfirst] at hfound
        cases hfound
      · rename_i packets after hpush
        rw [hpush, ofCut, hfirst] at hfound
        rw [hpush] at hlimit hawaiting hheld
        dsimp only at hfound hlimit hawaiting hheld
        obtain rfl := Except.ok.inj hfound
        have hlater := cut_left_over hfirst
        rw [← hawaiting, ← hheld] at hlater
        -- The rest of the pieces meets a buffer that holds no complete packet either.
        rw [ih (by rw [hlimit]; exact hlater) ?_]
        · rw [hlimit, hawaiting, hheld]
          rfl
        · intro front hfront
          have hmore := hgood (bytes ++ front) ((List.prefix_append_right_inj bytes).mpr hfront)
          rw [← List.append_assoc, cut_append hfirst] at hmore
          rw [hlimit, hawaiting, hheld]
          exact hmore

theorem feed_packets {limit : Nat} {packets : List Packet} {pieces : List Bytes}
    (hfit : ∀ packet ∈ packets, packet.payload.length ≤ Header.maxLength)
    (hlimit : ∀ packet ∈ packets, packet.payload.length ≤ limit)
    (hpart : pieces.flatten <+: packets.flatMap Packet.bytes) :
    ∃ found, feed (.empty limit) pieces = .ok found ∧ Complete packets found pieces.flatten := by
  have hempty : ([] : Bytes).length < Header.size := by decide
  refine ⟨_, feed_eq ?_ ?_, (cut_packets hfit hlimit hpart).2⟩
  · exact cut_of_short hempty
  · exact fun front hfront => (cut_packets hfit hlimit (hfront.trans hpart)).1

end PacketBuffer

end RoutedSession
