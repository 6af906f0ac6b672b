import RoutedSession.Proofs.Packet.Stream

namespace RoutedSession

theorem PacketKind.ofCode?_eq_none_iff {code : UInt8} :
    ofCode? code = none ↔ ¬ (1 ≤ code.toNat ∧ code.toNat ≤ 5) := by
  unfold ofCode?
  split
  case h_6 hone htwo hthree hfour hfive =>
    have hother {known : UInt8} (hne : code = known → False) : code.toNat ≠ known.toNat :=
      fun hsame => hne (UInt8.toNat_inj.mp hsame)
    refine iff_of_true rfl fun ⟨hlow, hhigh⟩ => ?_
    have h1 : code.toNat ≠ 1 := hother hone
    have h2 : code.toNat ≠ 2 := hother htwo
    have h3 : code.toNat ≠ 3 := hother hthree
    have h4 : code.toNat ≠ 4 := hother hfour
    have h5 : code.toNat ≠ 5 := hother hfive
    omega
  all_goals simp

theorem PacketKind.code_bounds (kind : PacketKind) :
    1 ≤ kind.code.toNat ∧ kind.code.toNat ≤ 5 := by
  cases kind <;> decide

namespace Header

theorem toNatBE_three (high middle low : UInt8) :
    Bytes.toNatBE [high, middle, low] = 65536 * high.toNat + 256 * middle.toNat + low.toNat := by
  simp only [Bytes.toNatBE, List.foldl_cons, List.foldl_nil]
  omega

theorem bytes_eq_iff {header : Header} (hfits : header.length ≤ maxLength)
    {code high middle low : UInt8} :
    header.bytes = [code, high, middle, low] ↔
      header.kind.code = code ∧
        header.length = 65536 * high.toNat + 256 * middle.toNat + low.toNat := by
  have hsmall : header.length < 256 ^ 3 := Nat.lt_succ_of_le hfits
  rw [← toNatBE_three, bytes, List.cons.injEq, and_congr_right_iff]
  intro _
  constructor
  · intro hdigits
    rw [← hdigits, Bytes.toNatBE_ofNatBE, Nat.mod_eq_of_lt hsmall]
  · intro hlength
    rw [hlength]
    exact Bytes.ofNatBE_toNatBE [high, middle, low]

theorem exists_bytes_eq {code : UInt8} (hcode : 1 ≤ code.toNat ∧ code.toNat ≤ 5)
    (high middle low : UInt8) :
    ∃ header : Header, header.bytes = [code, high, middle, low] ∧ header.length ≤ maxLength ∧
      header.length = 65536 * high.toNat + 256 * middle.toNat + low.toNat := by
  cases hkind : PacketKind.ofCode? code with
  | none => exact absurd hcode (PacketKind.ofCode?_eq_none_iff.mp hkind)
  | some kind =>
      have hsmall : Bytes.toNatBE [high, middle, low] < 256 ^ 3 :=
        Bytes.toNatBE_lt [high, middle, low]
      have hfits : Bytes.toNatBE [high, middle, low] ≤ maxLength := Nat.le_pred_of_lt hsmall
      have hlength := toNatBE_three high middle low
      refine ⟨⟨kind, Bytes.toNatBE [high, middle, low]⟩, ?_, hfits, hlength⟩
      exact (bytes_eq_iff hfits).mpr ⟨PacketKind.code_of_ofCode? hkind, hlength⟩

theorem encode_eq_ok_iff {header : Header} {bytes : Bytes} :
    header.encode = .ok bytes ↔ header.length ≤ maxLength ∧ bytes = header.bytes := by
  unfold encode
  split
  · rename_i hfits
    rw [Except.ok.injEq, eq_comm, and_iff_right hfits]
  · rename_i hlong
    exact iff_of_false nofun fun hfits => hlong hfits.1

/-- Bytes at whose start there is a whole header that is not accepted. The kind is judged before the
length. -/
inductive Refused (limit : Nat) : Bytes → FramingError → Prop where
  | unknownKind {code high middle low : UInt8} {rest : Bytes}
      (hcode : ¬ (1 ≤ code.toNat ∧ code.toNat ≤ 5)) :
      Refused limit (code :: high :: middle :: low :: rest) (.unknownKind code)
  | tooLarge {code high middle low : UInt8} {rest : Bytes} {length : Nat}
      (hcode : 1 ≤ code.toNat ∧ code.toNat ≤ 5)
      (hlength : length = 65536 * high.toNat + 256 * middle.toNat + low.toNat)
      (hlong : limit < length) :
      Refused limit (code :: high :: middle :: low :: rest) (.tooLarge length limit)

theorem parse?_eq_error_iff {limit : Nat} {bytes : Bytes} {reason : FramingError} :
    parse? limit bytes = .error reason ↔ Refused limit bytes reason := by
  constructor
  · intro hparsed
    unfold parse? at hparsed
    split at hparsed
    · split at hparsed
      · rename_i hkind
        obtain rfl := Except.error.inj hparsed
        exact .unknownKind (PacketKind.ofCode?_eq_none_iff.mp hkind)
      · rename_i kind hkind
        dsimp only at hparsed
        split at hparsed
        · cases hparsed
        · rename_i hlong
          obtain rfl := Except.error.inj hparsed
          rw [← PacketKind.code_of_ofCode? hkind]
          exact .tooLarge kind.code_bounds (toNatBE_three _ _ _) (Nat.not_le.mp hlong)
    · cases hparsed
  · intro hrefused
    cases hrefused with
    | unknownKind hcode => simp only [parse?, PacketKind.ofCode?_eq_none_iff.mpr hcode]
    | @tooLarge code high middle low rest length hcode hlength hlong =>
        rw [← toNatBE_three] at hlength
        subst hlength
        cases hkind : PacketKind.ofCode? code with
        | none => exact absurd hcode (PacketKind.ofCode?_eq_none_iff.mp hkind)
        | some kind => simp only [parse?, hkind, if_neg (Nat.not_le.mpr hlong)]

end Header

namespace PacketBuffer

section

variable {limit : Nat}

theorem cut_of_error {bytes : Bytes} {reason : FramingError}
    (hparsed : Header.parse? limit bytes = .error reason) :
    cut limit none bytes = ⟨[], some reason, none, bytes⟩ := by
  rw [cut]
  split <;> simp_all

theorem Stops.cut_eq {failure : Option FramingError} {awaiting : Option Header} {rest : Bytes}
    (hstops : Stops limit failure awaiting rest)
    (hawaiting : ∀ header ∈ awaiting, Accepts limit header.length) :
    cut limit none (leftOver awaiting rest) = ⟨[], failure, awaiting, rest⟩ := by
  cases hstops with
  | malformed hparsed => exact cut_of_error hparsed
  | inHeader hshort => exact cut_of_short hshort
  | @inPayload header _ hshort =>
      obtain ⟨hlimit, hfits⟩ := hawaiting header rfl
      rw [leftOver, Option.elim_some, cut_of_parsed (Header.parse?_bytes header hfits hlimit rest),
        cut_of_incomplete limit hshort]

/-- Bytes are cut as they are divided, for they can be divided in one way only. -/
theorem Divides.cut_eq {bytes : Bytes} {found : Cut} (hdivides : Divides limit bytes found) :
    cut limit none bytes = found := by
  obtain ⟨packets, failure, awaiting, rest⟩ := found
  obtain ⟨rfl, hpackets, hawaiting, hstops⟩ := hdivides
  dsimp only at hpackets hawaiting hstops ⊢
  induction packets with
  | nil => exact hstops.cut_eq hawaiting
  | cons packet packets ih =>
      obtain ⟨hlimit, hfits⟩ := hpackets packet List.mem_cons_self
      rw [List.flatMap_cons, List.append_assoc, cut_packet hfits hlimit,
        ih fun other hmem => hpackets other (List.mem_cons_of_mem packet hmem)]
      rfl

theorem Divides.unique {bytes : Bytes} {one other : Cut} (hone : Divides limit bytes one)
    (hother : Divides limit bytes other) : one = other :=
  hone.cut_eq.symm.trans hother.cut_eq

theorem Divides.packets_front {front bytes : Bytes} {part whole : Cut}
    (hfront : Divides limit front part) (hwhole : Divides limit bytes whole)
    (hgood : whole.failure = none) (hfirst : front <+: bytes) :
    part.failure = none ∧ part.packets <+: whole.packets := by
  obtain ⟨more, rfl⟩ := hfirst
  have hpart := hfront.cut_eq
  have hall := hwhole.cut_eq
  cases hfailure : part.failure with
  | none =>
      have happend := cut_append ((congrArg Cut.failure hpart).trans hfailure) more
      rw [hall, hpart] at happend
      rw [happend]
      exact ⟨rfl, List.prefix_append _ _⟩
  | some reason =>
      have happend := cut_append_of_failure ((congrArg Cut.failure hpart).trans hfailure) more
      rw [hall, hpart] at happend
      rw [happend] at hgood
      cases hfailure.symm.trans hgood

theorem divides_cut_none (limit : Nat) (bytes : Bytes) :
    Divides limit bytes (cut limit none bytes) := by
  have hnone : ∀ header ∈ (none : Option Header), Accepts limit header.length := by simp
  exact divides_cut bytes hnone

/-- These packets have come out of a buffer into which bytes were pushed that was new before, and
what is behind them is still in it. -/
structure Yields (limit : Nat) (bytes : Bytes) (packets : List Packet) (buffer : PacketBuffer) :
    Prop where
  limit_eq : buffer.limit = limit
  divides : Divides limit bytes ⟨packets, none, buffer.awaiting, buffer.held.bytes⟩

theorem yields_empty (limit : Nat) : Yields limit [] [] (.empty limit) := by
  have hshort : ([] : Bytes).length < Header.size := by decide
  exact ⟨rfl, rfl, by simp, by simp [empty], .inHeader hshort⟩

section

variable {bytes more : Bytes} {packets found : List Packet} {buffer after : PacketBuffer}

theorem Yields.ne_nil {first : Packet} (hyields : Yields limit bytes (first :: packets) buffer) :
    bytes ≠ [] := by
  rintro rfl
  have hcut := hyields.divides.cut_eq
  rw [cut_of_short (by decide)] at hcut
  cases hcut

theorem Yields.divides_append (hyields : Yields limit bytes packets buffer) (more : Bytes) :
    Divides limit (bytes ++ more)
      ((⟨packets, none, buffer.awaiting, buffer.held.bytes⟩ : Cut).before
        (cut limit buffer.awaiting (buffer.held.bytes ++ more))) := by
  have hcut := hyields.divides.cut_eq
  have happend := cut_append (congrArg Cut.failure hcut) more
  rw [hcut] at happend
  rw [← happend]
  exact divides_cut_none limit (bytes ++ more)

theorem Yields.push_ok (hyields : Yields limit bytes packets buffer)
    (hpush : buffer.push more = (.ok found, after)) :
    Yields limit (bytes ++ more) (packets ++ found) after := by
  have hdivides := hyields.divides_append more
  obtain ⟨hfound, hlimit, hawaiting, hheld⟩ := buffer.push_eq more
  rw [hpush, hyields.limit_eq] at hfound hlimit hawaiting hheld
  dsimp only at hfound hlimit hawaiting hheld
  refine ⟨hlimit, ?_⟩
  rw [hawaiting, hheld]
  generalize cut limit buffer.awaiting (buffer.held.bytes ++ more) = later at hfound hdivides ⊢
  obtain ⟨packets, _ | reason, awaiting, rest⟩ := later
  · obtain rfl := Except.ok.inj hfound
    exact hdivides
  · cases hfound

theorem Yields.push_error (hyields : Yields limit bytes packets buffer) {reason : FramingError}
    (hpush : buffer.push more = (.error reason, after)) :
    ∃ found awaiting rest,
      Divides limit (bytes ++ more) ⟨packets ++ found, some reason, awaiting, rest⟩ := by
  have hdivides := hyields.divides_append more
  have hfound := (buffer.push_eq more).1
  rw [hpush, hyields.limit_eq] at hfound
  generalize cut limit buffer.awaiting (buffer.held.bytes ++ more) = later at hfound hdivides
  obtain ⟨found, _ | error, awaiting, rest⟩ := later
  · cases hfound
  · obtain rfl := Except.error.inj hfound
    exact ⟨found, awaiting, rest, hdivides⟩

end

/-- The first header that is not accepted, behind packets all of which are. -/
def Fails (limit : Nat) (bytes : Bytes) (reason : FramingError) : Prop :=
  ∃ (packets : List Packet) (rest : Bytes), bytes = packets.flatMap Packet.bytes ++ rest ∧
    (∀ packet ∈ packets, Accepts limit packet.payload.length) ∧ Header.Refused limit rest reason

theorem failure_cut_eq_some_iff {bytes : Bytes} {reason : FramingError} :
    (cut limit none bytes).failure = some reason ↔ Fails limit bytes reason := by
  constructor
  · intro hfailure
    obtain ⟨hall, hpackets, -, hstops⟩ := divides_cut_none limit bytes
    generalize cut limit none bytes = found at hfailure hall hpackets hstops
    obtain ⟨packets, _, awaiting, rest⟩ := found
    dsimp only at hfailure hall hpackets hstops
    subst hfailure
    cases hstops with
    | malformed hparsed =>
        exact ⟨packets, rest, hall, hpackets, Header.parse?_eq_error_iff.mp hparsed⟩
  · rintro ⟨packets, rest, hall, hpackets, hrefused⟩
    have hdivides : Divides limit bytes ⟨packets, some reason, none, rest⟩ :=
      ⟨hall, hpackets, nofun, .malformed (Header.parse?_eq_error_iff.mpr hrefused)⟩
    rw [hdivides.cut_eq]

end

/-- The packets of a cut and all bytes behind them, unless the cut has failed. -/
def Cut.whole (found : Cut) : Except FramingError (List Packet × Bytes) :=
  match found.failure with
  | some reason => .error reason
  | none => .ok (found.packets, leftOver found.awaiting found.rest)

theorem Cut.whole_eq_ok_iff {found : Cut} {packets : List Packet} {rest : Bytes} :
    found.whole = .ok (packets, rest) ↔
      found.failure = none ∧ found.packets = packets ∧
        leftOver found.awaiting found.rest = rest := by
  unfold whole
  cases found.failure <;> simp

theorem Cut.whole_eq_error_iff {found : Cut} {reason : FramingError} :
    found.whole = .error reason ↔ found.failure = some reason := by
  unfold whole
  cases found.failure <;> simp

end PacketBuffer

namespace Packet

open PacketBuffer (Cut Divides Stops cut leftOver)

theorem decodeAll_eq_whole (bytes : Bytes) :
    decodeAll bytes = (cut defaultLimit none bytes).whole := by
  fun_induction decodeAll bytes with
  | case1 bytes reason hparsed =>
      rw [PacketBuffer.cut_of_error hparsed]
      rfl
  | case2 bytes hparsed =>
      rw [PacketBuffer.cut_of_short (Header.short_of_parse? hparsed)]
      rfl
  | case3 bytes header rest hparsed hcomplete reason hlater ih =>
      rw [Bytes.hasAtLeast_eq_true] at hcomplete
      rw [PacketBuffer.cut_of_parsed hparsed, PacketBuffer.cut_of_complete _ hcomplete, eq_comm,
        Cut.whole_eq_error_iff]
      exact (@Cut.whole_eq_error_iff (cut _ _ _) _).mp (ih.symm.trans hlater)
  | case4 bytes header rest hparsed hcomplete packets left hlater ih =>
      rw [Bytes.hasAtLeast_eq_true] at hcomplete
      rw [PacketBuffer.cut_of_parsed hparsed, PacketBuffer.cut_of_complete _ hcomplete, eq_comm,
        Cut.whole_eq_ok_iff]
      obtain ⟨hgood, hpackets, hleft⟩ := Cut.whole_eq_ok_iff.mp (ih.symm.trans hlater)
      exact ⟨hgood, congrArg _ hpackets, hleft⟩
  | case5 bytes header rest hparsed hshort =>
      rw [Bytes.hasAtLeast_eq_true, Nat.not_le] at hshort
      rw [PacketBuffer.cut_of_parsed hparsed, PacketBuffer.cut_of_incomplete _ hshort,
        (Header.eq_bytes_of_parse? hparsed).1]
      rfl

/-- Bytes are packets that are written one behind the other. -/
def Writes (packets : List Packet) (bytes : Bytes) : Prop :=
  ∃ pieces, packets.mapM encode = .ok pieces ∧ bytes = pieces.flatten

theorem mapM_encode_eq_ok_iff {packets : List Packet} {pieces : List Bytes} :
    packets.mapM encode = .ok pieces ↔
      (∀ packet ∈ packets, packet.payload.length ≤ Header.maxLength) ∧
        pieces = packets.map bytes := by
  induction packets generalizing pieces with
  | nil => simp [pure, Except.pure, eq_comm]
  | cons packet packets ih =>
      rw [List.mapM_cons, List.forall_mem_cons, List.map_cons]
      cases hfirst : packet.encode with
      | error reason =>
          refine iff_of_false nofun fun ⟨⟨hfits, _⟩, _⟩ => ?_
          rw [encode_eq_ok_iff.mpr ⟨hfits, rfl⟩] at hfirst
          cases hfirst
      | ok piece =>
          obtain ⟨hfits, rfl⟩ := encode_eq_ok_iff.mp hfirst
          rw [and_iff_right hfits]
          cases hmore : packets.mapM encode with
          | error reason =>
              refine iff_of_false nofun fun ⟨hfit, _⟩ => ?_
              rw [ih.mpr ⟨hfit, rfl⟩] at hmore
              cases hmore
          | ok more =>
              obtain ⟨hfit, rfl⟩ := ih.mp hmore
              simp only [bind, Except.bind, pure, Except.pure, Except.ok.injEq]
              exact ⟨fun hpieces => ⟨hfit, hpieces.symm⟩, fun hpieces => hpieces.2.symm⟩

theorem writes_iff {packets : List Packet} {written : Bytes} :
    Writes packets written ↔
      (∀ packet ∈ packets, packet.payload.length ≤ Header.maxLength) ∧
        written = packets.flatMap bytes := by
  unfold Writes
  simp only [mapM_encode_eq_ok_iff, List.flatMap_def]
  constructor
  · rintro ⟨_, ⟨hfit, rfl⟩, hwritten⟩
    exact ⟨hfit, hwritten⟩
  · rintro ⟨hfit, hwritten⟩
    exact ⟨_, ⟨hfit, rfl⟩, hwritten⟩

/-- Bytes in which the next packet is not complete: there is no whole header, or a good one and not
all of the payload that it announces. -/
def Incomplete : Bytes → Prop
  | code :: high :: middle :: low :: rest =>
      (1 ≤ code.toNat ∧ code.toNat ≤ 5) ∧
        rest.length < 65536 * high.toNat + 256 * middle.toNat + low.toNat
  | _ => True

theorem incomplete_leftOver {awaiting : Option Header} {rest : Bytes}
    (hstops : Stops defaultLimit none awaiting rest)
    (hawaiting : ∀ header ∈ awaiting, header.length ≤ Header.maxLength) :
    Incomplete (leftOver awaiting rest) := by
  unfold Incomplete
  split
  case h_2 => trivial
  case h_1 code high middle low more hbytes =>
    cases hstops with
    | inHeader hshort =>
        obtain rfl : rest = code :: high :: middle :: low :: more := hbytes
        simp only [List.length_cons, Header.size] at hshort
        omega
    | @inPayload header _ hshort =>
        have hsplit : header.bytes ++ rest = [code, high, middle, low] ++ more := hbytes
        obtain ⟨hheader, rfl⟩ := List.append_inj hsplit header.length_bytes
        obtain ⟨rfl, hlength⟩ := (Header.bytes_eq_iff (hawaiting header rfl)).mp hheader
        exact ⟨header.kind.code_bounds, hlength ▸ hshort⟩

theorem Incomplete.exists_leftOver {bytes : Bytes} (hincomplete : Incomplete bytes) :
    ∃ awaiting rest, bytes = leftOver awaiting rest ∧ Stops defaultLimit none awaiting rest ∧
      ∀ header ∈ awaiting, header.length ≤ Header.maxLength := by
  unfold Incomplete at hincomplete
  split at hincomplete
  · rename_i code high middle low more
    obtain ⟨header, hheader, hfits, hlength⟩ :=
      Header.exists_bytes_eq hincomplete.1 high middle low
    refine ⟨some header, more, ?_, .inPayload (hlength ▸ hincomplete.2), by simpa using hfits⟩
    rw [leftOver, Option.elim_some, hheader]
    rfl
  · rename_i hshort
    refine ⟨none, bytes, rfl, .inHeader ?_, by simp⟩
    refine @Header.short_of_parse? defaultLimit _ ?_
    rw [Header.parse?]
    exact hshort

theorem accepts_defaultLimit_iff {length : Nat} :
    PacketBuffer.Accepts defaultLimit length ↔ length ≤ Header.maxLength := by
  have hmost : Header.maxLength ≤ defaultLimit := by decide
  exact ⟨And.right, fun hfits => ⟨hfits.trans hmost, hfits⟩⟩

theorem decodeAll_eq_ok_iff {bytes rest : Bytes} {packets : List Packet} :
    decodeAll bytes = .ok (packets, rest) ↔
      ∃ front, Writes packets front ∧ bytes = front ++ rest ∧ Incomplete rest := by
  rw [decodeAll_eq_whole, Cut.whole_eq_ok_iff]
  constructor
  · rintro ⟨hgood, rfl, rfl⟩
    obtain ⟨hall, hpackets, hawaiting, hstops⟩ :=
      PacketBuffer.divides_cut_none defaultLimit bytes
    rw [hgood] at hstops
    exact ⟨_, writes_iff.mpr ⟨fun packet hmem => (hpackets packet hmem).2, rfl⟩, hall,
      incomplete_leftOver hstops fun header hmem => (hawaiting header hmem).2⟩
  · rintro ⟨front, hfront, rfl, hincomplete⟩
    obtain ⟨hfit, rfl⟩ := writes_iff.mp hfront
    obtain ⟨awaiting, held, rfl, hstops, hawaiting⟩ := hincomplete.exists_leftOver
    have hdivides : Divides defaultLimit (packets.flatMap bytes ++ leftOver awaiting held)
        ⟨packets, none, awaiting, held⟩ :=
      ⟨rfl, fun packet hmem => accepts_defaultLimit_iff.mpr (hfit packet hmem),
        fun header hmem => accepts_defaultLimit_iff.mpr (hawaiting header hmem), hstops⟩
    rw [hdivides.cut_eq]
    exact ⟨rfl, rfl, rfl⟩

theorem decodeAll_eq_error_iff {bytes : Bytes} {reason : FramingError} :
    decodeAll bytes = .error reason ↔
      ∃ packets front code high middle low rest, Writes packets front ∧
        bytes = front ++ code :: high :: middle :: low :: rest ∧
          ¬ (1 ≤ code.toNat ∧ code.toNat ≤ 5) ∧ reason = .unknownKind code := by
  rw [decodeAll_eq_whole, Cut.whole_eq_error_iff, PacketBuffer.failure_cut_eq_some_iff]
  constructor
  · rintro ⟨packets, rest, rfl, hpackets, hrefused⟩
    have hfit (packet : Packet) (hmem : packet ∈ packets) :=
      accepts_defaultLimit_iff.mp (hpackets packet hmem)
    cases hrefused with
    | @unknownKind code high middle low rest hcode =>
        exact ⟨packets, _, code, high, middle, low, rest, writes_iff.mpr ⟨hfit, rfl⟩, rfl, hcode,
          rfl⟩
    | @tooLarge code high middle low rest length hcode hlength hlong =>
        -- Three digits make up no number beyond the largest limit.
        have hmost : defaultLimit = 16777216 := by decide
        have hhigh := high.toNat_lt
        have hmiddle := middle.toNat_lt
        have hlow := low.toNat_lt
        omega
  · rintro ⟨packets, front, code, high, middle, low, rest, hfront, rfl, hcode, rfl⟩
    obtain ⟨hfit, rfl⟩ := writes_iff.mp hfront
    exact ⟨packets, _, rfl, fun packet hmem => accepts_defaultLimit_iff.mpr (hfit packet hmem),
      .unknownKind hcode⟩

end Packet

theorem Header.encode_eq_ok_iff_digits {header : Header} {written : Bytes} :
    header.encode = .ok written ↔
      header.length < 2 ^ 24 ∧ ∃ high middle low,
        written = [header.kind.code, high, middle, low] ∧
          header.length = 65536 * high.toNat + 256 * middle.toNat + low.toNat := by
  have hmost : header.length ≤ maxLength ↔ header.length < 2 ^ 24 :=
    Nat.le_sub_one_iff_lt (by decide)
  rw [encode_eq_ok_iff, ← hmost, and_congr_right_iff]
  intro hfits
  constructor
  · rintro rfl
    exact ⟨_, _, _, rfl, ((bytes_eq_iff hfits).mp rfl).2⟩
  · rintro ⟨high, middle, low, rfl, hlength⟩
    exact ((bytes_eq_iff hfits).mpr ⟨rfl, hlength⟩).symm

namespace Packet

theorem encode_eq_ok_iff_header {packet : Packet} {written : Bytes} :
    packet.encode = .ok written ↔
      ∃ header, packet.header.encode = .ok header ∧ written = header ++ packet.payload := by
  unfold encode
  cases packet.header.encode <;> simp [Except.map, eq_comm]

/-- How decoding all packets at the start of bytes and writing packets belong together. -/
structure DecodesExactly (bytes : Bytes) : Prop where
  /-- The packets that are decoded are those that the decoded bytes are written from, and the next
  packet is not complete. -/
  ok_iff : ∀ packets count, count ≤ bytes.length →
    (decodeAll bytes = .ok (packets, bytes.drop count) ↔
      Writes packets (bytes.take count) ∧ Incomplete (bytes.drop count))
  /-- What is left are the bytes behind those that were decoded. -/
  left_over : ∀ packets rest, decodeAll bytes = .ok (packets, rest) →
    ∃ count, count ≤ bytes.length ∧ rest = bytes.drop count
  error_iff : ∀ reason, decodeAll bytes = .error reason ↔
    ∃ packets front code high middle low rest, Writes packets front ∧
      bytes = front ++ code :: high :: middle :: low :: rest ∧
        ¬ (1 ≤ code.toNat ∧ code.toNat ≤ 5) ∧ reason = .unknownKind code
  not_tooLarge : ∀ size limit, decodeAll bytes ≠ .error (.tooLarge size limit)
  /-- The length that is written is that of the payload, and no other. -/
  header_ok_iff : ∀ (header : Header) (written : Bytes),
    header.encode = .ok written ↔
      header.length < 2 ^ 24 ∧ ∃ high middle low,
        written = [header.kind.code, high, middle, low] ∧
          header.length = 65536 * high.toNat + 256 * middle.toNat + low.toNat
  packet_ok_iff : ∀ (packet : Packet) (written : Bytes),
    packet.encode = .ok written ↔
      packet.payload.length < 2 ^ 24 ∧ ∃ high middle low,
        written = packet.kind.code :: high :: middle :: low :: packet.payload ∧
          packet.payload.length = 65536 * high.toNat + 256 * middle.toNat + low.toNat

/-- Decoding all packets at the start of bytes is the inverse of writing packets one behind the
other. -/
theorem decode_decodesExactly (bytes : Bytes) : DecodesExactly bytes where
  ok_iff := by
    intro packets count hcount
    rw [decodeAll_eq_ok_iff]
    constructor
    · rintro ⟨front, hfront, hsplit, hincomplete⟩
      nth_rewrite 1 [← List.take_append_drop count bytes] at hsplit
      rw [List.append_cancel_right hsplit]
      exact ⟨hfront, hincomplete⟩
    · rintro ⟨hfront, hincomplete⟩
      exact ⟨_, hfront, (List.take_append_drop count bytes).symm, hincomplete⟩
  left_over := by
    intro packets rest hdecoded
    obtain ⟨front, -, rfl, -⟩ := decodeAll_eq_ok_iff.mp hdecoded
    exact ⟨front.length, by simp, by simp⟩
  error_iff _ := decodeAll_eq_error_iff
  not_tooLarge := by
    intro size limit hdecoded
    obtain ⟨_, _, _, _, _, _, _, _, _, _, hreason⟩ := decodeAll_eq_error_iff.mp hdecoded
    cases hreason
  header_ok_iff _ _ := Header.encode_eq_ok_iff_digits
  packet_ok_iff := by
    intro packet written
    simp only [encode_eq_ok_iff_header, Header.encode_eq_ok_iff_digits]
    constructor
    · rintro ⟨_, ⟨hfits, high, middle, low, rfl, hlength⟩, rfl⟩
      exact ⟨hfits, high, middle, low, rfl, hlength⟩
    · rintro ⟨hfits, high, middle, low, rfl, hlength⟩
      exact ⟨_, ⟨hfits, high, middle, low, rfl, hlength⟩, rfl⟩

/-- The last packet is left over, for its payload ends too early. -/
example :
    decodeAll [3, 0, 0, 0, 4, 0, 0, 1, 7, 5, 0, 0, 2, 9] =
      .ok ([⟨.heartbeat, []⟩, ⟨.data, [7]⟩], [5, 0, 0, 2, 9]) := by
  decide +kernel

end Packet

end RoutedSession
