import RoutedSession.Proofs.Packet.Inverse

namespace RoutedSession.PacketBuffer

/-- Every whole header at the start of bytes or behind complete packets announces a payload within
the limit. -/
def HeadersWithin (limit : Nat) (bytes : Bytes) : Prop :=
  ∀ (packets : List Packet) (front : Bytes) (code high middle low : UInt8) (rest : Bytes),
    Packet.Writes packets front → bytes = front ++ code :: high :: middle :: low :: rest →
      65536 * high.toNat + 256 * middle.toNat + low.toNat ≤ limit

section

variable {limit : Nat} {bytes : Bytes}

theorem headersWithin_of_maxLength_le (hlimit : Header.maxLength ≤ limit) (bytes : Bytes) :
    HeadersWithin limit bytes := by
  intro packets front code high middle low rest hfront hbytes
  have hmost : Header.maxLength = 16777215 := by decide
  have hhigh := high.toNat_lt
  have hmiddle := middle.toNat_lt
  have hlow := low.toNat_lt
  omega

theorem failure_cut_of_long {code high middle low : UInt8} {rest : Bytes}
    (hlong : limit < 65536 * high.toNat + 256 * middle.toNat + low.toNat) :
    (cut limit none (code :: high :: middle :: low :: rest)).failure ≠ none := by
  have hrefused : ∃ reason,
      Header.Refused limit (code :: high :: middle :: low :: rest) reason := by
    by_cases hcode : 1 ≤ code.toNat ∧ code.toNat ≤ 5
    · exact ⟨_, .tooLarge hcode rfl hlong⟩
    · exact ⟨_, .unknownKind hcode⟩
  obtain ⟨reason, hrefused⟩ := hrefused
  rw [cut_of_error (Header.parse?_eq_error_iff.mpr hrefused)]
  nofun

theorem headersWithin_of_good (hgood : (cut limit none bytes).failure = none) :
    HeadersWithin limit bytes := by
  intro packets front code high middle low rest hfront hbytes
  obtain ⟨hfit, rfl⟩ := Packet.writes_iff.mp hfront
  subst hbytes
  by_contra hlong
  rw [Nat.not_le] at hlong
  -- On the packets in front; the first header that is too long is theirs or the one behind them.
  induction packets with
  | nil => exact failure_cut_of_long hlong hgood
  | cons packet packets ih =>
      rw [List.forall_mem_cons] at hfit
      rw [List.flatMap_cons, List.append_assoc] at hgood
      by_cases hlimit : packet.payload.length ≤ limit
      · rw [cut_packet hfit.1 hlimit] at hgood
        exact ih hfit.2 (Packet.writes_iff.mpr ⟨hfit.2, rfl⟩) hgood
      · have hlength := ((@Header.bytes_eq_iff packet.header hfit.1 _ _ _ _).mp rfl).2
        rw [Packet.bytes, List.append_assoc] at hgood
        exact failure_cut_of_long (hlength ▸ Nat.not_le.mp hlimit) hgood

theorem cut_defaultLimit_of_headersWithin (hwithin : HeadersWithin limit bytes) :
    cut Packet.defaultLimit none bytes = cut limit none bytes := by
  obtain ⟨hall, hpackets, hawaiting, hstops⟩ := divides_cut_none limit bytes
  generalize cut limit none bytes = found at hall hpackets hawaiting hstops ⊢
  obtain ⟨packets, failure, awaiting, rest⟩ := found
  dsimp only at hall hpackets hawaiting hstops
  refine Divides.cut_eq ⟨hall, fun packet hmem => ?_, fun header hmem => ?_, ?_⟩
  · exact Packet.accepts_defaultLimit_iff.mpr (hpackets packet hmem).2
  · exact Packet.accepts_defaultLimit_iff.mpr (hawaiting header hmem).2
  · cases hstops with
    | inHeader hshort => exact .inHeader hshort
    | inPayload hshort => exact .inPayload hshort
    | malformed hparsed =>
        cases Header.parse?_eq_error_iff.mp hparsed with
        | unknownKind hcode =>
            exact .malformed (Header.parse?_eq_error_iff.mpr (.unknownKind hcode))
        | tooLarge hcode hlength hlong =>
            have hfront : Packet.Writes packets (packets.flatMap Packet.bytes) :=
              Packet.writes_iff.mpr ⟨fun packet hmem => (hpackets packet hmem).2, rfl⟩
            have hshort := hwithin _ _ _ _ _ _ _ hfront hall
            omega

end

/-- What is held of bytes from a certain place on, in which no packet is complete. Behind a header
that has been taken out as many bytes are awaited as it announces. -/
inductive Keeps (buffer : PacketBuffer) (bytes : Bytes) (place : Nat) : Prop where
  | header (hawaiting : buffer.awaiting = none) (hheld : buffer.held.bytes = bytes.drop place)
  | payload {header : Header} {high middle low : UInt8} (hawaiting : buffer.awaiting = some header)
      (hheader : (bytes.drop place).take 4 = [header.kind.code, high, middle, low])
      (hlength : header.length = 65536 * high.toNat + 256 * middle.toNat + low.toNat)
      (hheld : buffer.held.bytes = bytes.drop (place + 4))

theorem keeps_of_leftOver {buffer : PacketBuffer} {front : Bytes}
    (hawaiting : ∀ header ∈ buffer.awaiting, header.length ≤ Header.maxLength) :
    Keeps buffer (front ++ leftOver buffer.awaiting buffer.held.bytes) front.length := by
  cases hsome : buffer.awaiting with
  | none => exact .header hsome (by simp [leftOver])
  | some header =>
      have hlength := (Header.bytes_eq_iff (hawaiting header hsome)).mp rfl
      refine .payload hsome ?_ hlength.2 ?_
      · simp [leftOver, Header.bytes, Bytes.ofNatBE]
      · simp [leftOver, Header.bytes, Bytes.ofNatBE]

/-- What pushing bytes has come to, if decoding them at once comes to the same. -/
inductive SameAsDecoded (bytes : Bytes) :
    List Packet × Except FramingError PacketBuffer → Prop where
  | decoded {packets : List Packet} {count : Nat} {buffer : PacketBuffer}
      (hcount : count ≤ bytes.length)
      (hdecoded : Packet.decodeAll bytes = .ok (packets, bytes.drop count))
      (hkeeps : Keeps buffer bytes count) : SameAsDecoded bytes (packets, .ok buffer)
  | refused {front : List Packet} {reason : FramingError}
      (hdecoded : Packet.decodeAll bytes = .error reason) :
      SameAsDecoded bytes (front, .error reason)

/-- How pushing bytes into a buffer and decoding them at once belong together. -/
structure AgreesWithDecoding (limit : Nat) (bytes : Bytes)
    (result : List Packet × Except FramingError PacketBuffer) : Prop where
  same : 2 ^ 24 - 1 ≤ limit ∨ HeadersWithin limit bytes → SameAsDecoded bytes result
  /-- Otherwise pushing fails, at the first header that is not accepted. -/
  fails_otherwise : ¬ HeadersWithin limit bytes → ∃ reason, result.2 = .error reason
  failed_iff : ∀ reason, result.2 = .error reason ↔ Fails limit bytes reason

/-- A new buffer makes of a stream what decoding it at once makes of it, in whatever pieces the
stream is pushed. -/
theorem pushAll_agreesWithDecoding (limit : Nat) (pieces : List Bytes) :
    AgreesWithDecoding limit pieces.flatten (pushAll (.empty limit) pieces) := by
  have hsettled : cut limit none [] = ⟨[], none, none, []⟩ := cut_of_short (by decide)
  have hends : Ends limit (cut limit none pieces.flatten) (pushAll (.empty limit) pieces) :=
    @ends_pushAll (.empty limit) hsettled pieces
  generalize pushAll (.empty limit) pieces = result at hends ⊢
  generalize pieces.flatten = bytes at hends ⊢
  have hfailed (reason : FramingError) :
      result.2 = .error reason ↔ (cut limit none bytes).failure = some reason := by
    cases hends with
    | complete hgood => simp [hgood]
    | failed hfailure => simp [hfailure]
  constructor
  case same =>
    intro hlimit
    have hwithin : HeadersWithin limit bytes :=
      hlimit.elim (fun hmost => headersWithin_of_maxLength_le hmost bytes) id
    have hdecode := Packet.decodeAll_eq_whole bytes
    rw [cut_defaultLimit_of_headersWithin hwithin] at hdecode
    obtain ⟨hall, -, hawaiting, -⟩ := divides_cut_none limit bytes
    generalize cut limit none bytes = found at hends hdecode hall hawaiting
    cases hends with
    | @complete buffer hgood _ hbuffer hheld =>
        rw [← hbuffer] at hawaiting
        have hdecoded := hdecode.trans (Cut.whole_eq_ok_iff.mpr ⟨hgood, rfl, rfl⟩)
        rw [← hbuffer, ← hheld] at hall hdecoded
        have hdrop := @List.drop_left _ (found.packets.flatMap Packet.bytes)
          (leftOver buffer.awaiting buffer.held.bytes)
        have hkeeps := @keeps_of_leftOver buffer (found.packets.flatMap Packet.bytes)
          fun header hmem => (hawaiting header hmem).2
        rw [← hall] at hdrop hkeeps
        refine .decoded ?_ (hdrop ▸ hdecoded) hkeeps
        rw [hall, List.length_append]
        exact Nat.le_add_right _ _
    | failed hfailure =>
        refine .refused (hdecode.trans ?_)
        exact Cut.whole_eq_error_iff.mpr hfailure
  case fails_otherwise =>
    intro hbeyond
    cases hfailure : (cut limit none bytes).failure with
    | none => exact absurd (headersWithin_of_good hfailure) hbeyond
    | some reason => exact ⟨reason, (hfailed reason).mpr hfailure⟩
  case failed_iff =>
    intro reason
    rw [hfailed, failure_cut_eq_some_iff]

/-- A buffer with a smaller limit refuses what decoding at once accepts. -/
example :
    ((empty 1).push [4, 0, 0, 2, 7, 7]).1 = .error (.tooLarge 2 1) ∧
      Packet.decodeAll [4, 0, 0, 2, 7, 7] = .ok ([⟨.data, [7, 7]⟩], []) := by
  decide +kernel

end RoutedSession.PacketBuffer
