import Mathlib.Data.Nat.Bitwise
import RoutedSession.Proofs.Message.RoundTrip

namespace RoutedSession.Message

/-- Bytes that are the id of a message. -/
inductive SpellsId : MessageKind → Bytes → UInt32 → Prop where
  | number {kind : MessageKind} {groups : Bytes} {id : UInt32}
      (hkind : kind = .request ∨ kind = .response) (hgroups : Varint.Spells groups id) :
      SpellsId kind groups id
  | absent {kind : MessageKind} (hkind : kind = .notify ∨ kind = .push) : SpellsId kind [] 0

/-- Why bytes do not start with the id of a message. -/
inductive IdFails : MessageKind → Bytes → DecodeError → Prop where
  | truncated {kind : MessageKind} {bytes : Bytes} (hkind : kind = .request ∨ kind = .response)
      (hbytes : Varint.Fails bytes .truncated) : IdFails kind bytes .truncated
  | overflow {kind : MessageKind} {bytes : Bytes} (hkind : kind = .request ∨ kind = .response)
      (hbytes : Varint.Fails bytes .overflow) : IdFails kind bytes .idOverflow

/-- Bytes that are the route of a message, given by its code or written out. -/
inductive SpellsRoute (table : RouteTable) :
    MessageKind → (coded : Bool) → Bytes → String → Prop where
  | code {kind : MessageKind} {high low : UInt8} {code : RouteCode} {route : String}
      (hkind : kind ≠ .response) (hcode : code.toNat = 256 * high.toNat + low.toNat)
      (hroute : table.route? code = some route) : SpellsRoute table kind true [high, low] route
  | written {kind : MessageKind} {length : UInt8} {route : String} (hkind : kind ≠ .response)
      (hlength : length.toNat = (Bytes.ofString route).length) :
      SpellsRoute table kind false (length :: Bytes.ofString route) route
  | absent {coded : Bool} : SpellsRoute table .response coded [] ""

/-- Why bytes do not start with the route of a message. -/
inductive RouteFails (table : RouteTable) :
    MessageKind → (coded : Bool) → Bytes → DecodeError → Prop where
  | codeTruncated {kind : MessageKind} {bytes : Bytes} (hkind : kind ≠ .response)
      (hshort : bytes.length < 2) : RouteFails table kind true bytes .truncated
  | unknownCode {kind : MessageKind} {high low : UInt8} {rest : Bytes} {code : RouteCode}
      (hkind : kind ≠ .response) (hcode : code.toNat = 256 * high.toNat + low.toNat)
      (hroute : table.route? code = none) :
      RouteFails table kind true (high :: low :: rest) (.unknownRoute code)
  | lengthMissing {kind : MessageKind} (hkind : kind ≠ .response) :
      RouteFails table kind false [] .truncated
  | textTruncated {kind : MessageKind} {length : UInt8} {rest : Bytes} (hkind : kind ≠ .response)
      (hshort : rest.length < length.toNat) :
      RouteFails table kind false (length :: rest) .truncated
  | noText {kind : MessageKind} {length : UInt8} {text rest : Bytes} (hkind : kind ≠ .response)
      (hlength : length.toNat = text.length) (htext : ∀ route, text ≠ Bytes.ofString route) :
      RouteFails table kind false (length :: text ++ rest) .invalidRoute

/-- What the bytes behind the route stand for. -/
inductive Unpacks : (compressed : Bool) → Bytes → Bytes → Prop where
  | plain {body : Bytes} : Unpacks false body body
  | inflated {body payload : Bytes} (hbody : Gzip.decompress body = .ok payload) :
      Unpacks true body payload

/-- Bytes that are a message: flags, the id, the route and the content. -/
inductive Spells (table : RouteTable) : Bytes → Message → Prop where
  | parts {byte : UInt8} {kind : MessageKind} {groups name body payload : Bytes} {id : UInt32}
      {route : String} (hkind : byte.toNat / 2 % 8 = kind.code.toNat)
      (hid : SpellsId kind groups id)
      (hroute : SpellsRoute table kind (byte.toNat.testBit 0) name route)
      (hbody : Unpacks (byte.toNat.testBit 4) body payload) :
      Spells table (byte :: (groups ++ (name ++ body)))
        ⟨kind, id, route, payload, byte.toNat.testBit 5, byte.toNat.testBit 4⟩

/-- Why bytes are no message. In front of the part that is wrong every part is right. -/
inductive Rejects (table : RouteTable) : Bytes → DecodeError → Prop where
  | empty : Rejects table [] .truncated
  | kind {byte code : UInt8} {rest : Bytes} (hcode : code.toNat = byte.toNat / 2 % 8)
      (hkind : 4 ≤ code.toNat) : Rejects table (byte :: rest) (.invalidKind code)
  | id {byte : UInt8} {kind : MessageKind} {rest : Bytes} {reason : DecodeError}
      (hkind : byte.toNat / 2 % 8 = kind.code.toNat) (hid : IdFails kind rest reason) :
      Rejects table (byte :: rest) reason
  | route {byte : UInt8} {kind : MessageKind} {groups rest : Bytes} {id : UInt32}
      {reason : DecodeError} (hkind : byte.toNat / 2 % 8 = kind.code.toNat)
      (hid : SpellsId kind groups id)
      (hroute : RouteFails table kind (byte.toNat.testBit 0) rest reason) :
      Rejects table (byte :: (groups ++ rest)) reason
  | content {byte : UInt8} {kind : MessageKind} {groups name body : Bytes} {id : UInt32}
      {route : String} {reason : GzipError} (hkind : byte.toNat / 2 % 8 = kind.code.toNat)
      (hid : SpellsId kind groups id)
      (hroute : SpellsRoute table kind (byte.toNat.testBit 0) name route)
      (hcompressed : byte.toNat.testBit 4 = true) (hbody : Gzip.decompress body = .error reason) :
      Rejects table (byte :: (groups ++ (name ++ body))) (.inflate reason)

namespace Flags

theorem toNat_kindCode (byte : UInt8) : (kindCode byte).toNat = byte.toNat / 2 % 8 := by
  rw [kindCode, UInt8.toNat_and, UInt8.toNat_shiftRight]
  exact Nat.and_two_pow_sub_one_eq_mod (byte.toNat / 2) 3

theorem hasBit_eq_testBit {byte mask : UInt8} {bit : Nat} (hmask : mask.toNat = 2 ^ bit) :
    hasBit byte mask = byte.toNat.testBit bit := by
  have hzero : byte &&& mask = 0 ↔ (byte &&& mask).toNat = 0 := UInt8.toNat_inj.symm
  rw [hasBit, Bool.eq_iff_iff, bne_iff_ne, ne_eq, hzero, UInt8.toNat_and, hmask,
    Nat.and_two_pow]
  cases byte.toNat.testBit bit <;> simp

theorem ofByte_of_kind {byte : UInt8} {kind : MessageKind}
    (hkind : byte.toNat / 2 % 8 = kind.code.toNat) :
    ofByte byte =
      .ok ⟨kind, byte.toNat.testBit 5, byte.toNat.testBit 4, byte.toNat.testBit 0⟩ := by
  have hcode : kindCode byte = kind.code := UInt8.toNat_inj.mp ((toNat_kindCode byte).trans hkind)
  simp only [ofByte, hcode, MessageKind.ofCode?_code,
    @hasBit_eq_testBit byte errorBit 5 rfl, @hasBit_eq_testBit byte compressedBit 4 rfl,
    @hasBit_eq_testBit byte routeCodeBit 0 rfl]

theorem exists_kind_or_le (code : UInt8) :
    (∃ kind : MessageKind, kind.code = code) ∨
      4 ≤ code.toNat ∧ MessageKind.ofCode? code = none := by
  unfold MessageKind.ofCode?
  split
  case h_5 hzero hone htwo hthree =>
    have hother {known : UInt8} (hne : code = known → False) : code.toNat ≠ known.toNat :=
      fun hsame => hne (UInt8.toNat_inj.mp hsame)
    have h0 : code.toNat ≠ 0 := hother hzero
    have h1 : code.toNat ≠ 1 := hother hone
    have h2 : code.toNat ≠ 2 := hother htwo
    have h3 : code.toNat ≠ 3 := hother hthree
    exact .inr ⟨by omega, rfl⟩
  case h_1 => exact .inl ⟨.request, rfl⟩
  case h_2 => exact .inl ⟨.notify, rfl⟩
  case h_3 => exact .inl ⟨.response, rfl⟩
  case h_4 => exact .inl ⟨.push, rfl⟩

theorem ofByte_of_noKind {byte code : UInt8} (hcode : code.toNat = byte.toNat / 2 % 8)
    (hkind : 4 ≤ code.toNat) : ofByte byte = .error (.invalidKind code) := by
  obtain rfl : kindCode byte = code :=
    UInt8.toNat_inj.mp ((toNat_kindCode byte).trans hcode.symm)
  obtain ⟨kind, hsame⟩ | ⟨-, hnone⟩ := exists_kind_or_le (kindCode byte)
  · rw [← hsame] at hkind
    cases kind <;> exact absurd hkind (by decide)
  · rw [ofByte, hnone]

theorem testBit_congr {byte other : UInt8} (hbits : byte.toNat / 2 % 32 = other.toNat / 2 % 32)
    {bit : Nat} (hbit : bit < 5) :
    byte.toNat.testBit (bit + 1) = other.toNat.testBit (bit + 1) := by
  have hsame : (byte.toNat / 2 % 2 ^ 5).testBit bit = (other.toNat / 2 % 2 ^ 5).testBit bit :=
    congrArg (Nat.testBit · bit) hbits
  rwa [Nat.testBit_mod_two_pow, Nat.testBit_mod_two_pow, decide_eq_true hbit, Bool.true_and,
    Bool.true_and, ← Nat.testBit_succ, ← Nat.testBit_succ] at hsame

theorem ofByte_congr {byte other : UInt8} (hcoded : byte.toNat % 2 = other.toNat % 2)
    (hbits : byte.toNat / 2 % 32 = other.toNat / 2 % 32) : ofByte byte = ofByte other := by
  have hkinds : byte.toNat / 2 % 8 = other.toNat / 2 % 8 := by omega
  have hcode : kindCode byte = kindCode other := by
    rw [← UInt8.toNat_inj, toNat_kindCode, toNat_kindCode, hkinds]
  obtain ⟨kind, hkind⟩ | ⟨hlarge, -⟩ := exists_kind_or_le (kindCode byte)
  · have hfirst : byte.toNat / 2 % 8 = kind.code.toNat := by rw [hkind, toNat_kindCode]
    have hcodedBit : byte.toNat.testBit 0 = other.toNat.testBit 0 := by
      rw [Nat.testBit_zero, Nat.testBit_zero, hcoded]
    rw [ofByte_of_kind hfirst, ofByte_of_kind (hkinds ▸ hfirst), hcodedBit,
      testBit_congr hbits (by decide : 3 < 5), testBit_congr hbits (by decide : 4 < 5)]
  · rw [ofByte_of_noKind (toNat_kindCode byte) hlarge,
      ofByte_of_noKind ((toNat_kindCode byte).trans hkinds) hlarge]

end Flags

section

variable {kind : MessageKind}

theorem hasId_iff : kind.hasId = true ↔ kind = .request ∨ kind = .response := by
  cases kind <;> decide

theorem SpellsId.takeId_eq {groups : Bytes} {id : UInt32} (hid : SpellsId kind groups id)
    (rest : Bytes) : takeId kind (groups ++ rest) = .ok (id, rest) := by
  cases hid with
  | number hkind hgroups =>
      rw [takeId, if_pos (hasId_iff.mpr hkind), hgroups.decode_eq]
      rfl
  | absent hkind => obtain rfl | rfl := hkind <;> rfl

theorem IdFails.takeId_eq {bytes : Bytes} {reason : DecodeError} (hid : IdFails kind bytes reason) :
    takeId kind bytes = .error reason := by
  cases hid with
  | truncated hkind hbytes | overflow hkind hbytes =>
      rw [takeId, if_pos (hasId_iff.mpr hkind), hbytes.decode_eq]
      rfl

theorem spellsId_or_fails (kind : MessageKind) (bytes : Bytes) :
    (∃ groups id rest, bytes = groups ++ rest ∧ SpellsId kind groups id) ∨
      ∃ reason, IdFails kind bytes reason := by
  by_cases hkind : kind = .request ∨ kind = .response
  · obtain ⟨groups, id, rest, rfl, hgroups⟩ | ⟨fault, hfails⟩ := Varint.spells_or_fails bytes
    · exact .inl ⟨groups, id, rest, rfl, .number hkind hgroups⟩
    · cases fault with
      | truncated => exact .inr ⟨_, .truncated hkind hfails⟩
      | overflow => exact .inr ⟨_, .overflow hkind hfails⟩
  · have hother : kind = .notify ∨ kind = .push := by
      cases kind <;> simp_all
    exact .inl ⟨[], 0, bytes, rfl, .absent hother⟩

end

theorem toUInt16_toNatBE_two {high low : UInt8} {code : RouteCode}
    (hcode : code.toNat = 256 * high.toNat + low.toNat) :
    (Bytes.toNatBE [high, low]).toUInt16 = code := by
  have hread : Bytes.toNatBE [high, low] = code.toNat := by
    simp [Bytes.toNatBE, hcode]
  rw [hread]
  exact UInt16.ofNat_toNat

theorem toString?_eq_none {text : Bytes} (htext : ∀ route, text ≠ Bytes.ofString route) :
    Bytes.toString? text = none := by
  cases hread : Bytes.toString? text with
  | none => rfl
  | some route => exact absurd (Bytes.eq_ofString_of_toString? hread) (htext route)

section

variable {table : RouteTable} {kind : MessageKind} {coded : Bool}

theorem hasRoute_iff : kind.hasRoute = true ↔ kind ≠ .response := by
  cases kind <;> decide

theorem SpellsRoute.takeRoute_eq {name : Bytes} {route : String}
    (hroute : SpellsRoute table kind coded name route) (isError isCompressed : Bool)
    (rest : Bytes) :
    takeRoute table ⟨kind, isError, isCompressed, coded⟩ (name ++ rest) = .ok (route, rest) := by
  cases hroute with
  | code hkind hcode hknown =>
      simp only [takeRoute, hasRoute_iff.mpr hkind, if_true, List.cons_append, List.nil_append,
        takeCodedRoute, toUInt16_toNatBE_two hcode, hknown]
  | @written _ length _ hkind hlength =>
      have hsplit : Bytes.split? length.toNat (Bytes.ofString route ++ rest) =
          some (Bytes.ofString route, rest) := Bytes.split?_eq_some_iff.mpr ⟨hlength.symm, rfl⟩
      simp only [takeRoute, hasRoute_iff.mpr hkind, if_true, Bool.false_eq_true, if_false,
        List.cons_append, takeWrittenRoute, hsplit, Bytes.toString?_ofString]
  | absent => rfl

theorem RouteFails.takeRoute_eq {bytes : Bytes} {reason : DecodeError}
    (hroute : RouteFails table kind coded bytes reason) (isError isCompressed : Bool) :
    takeRoute table ⟨kind, isError, isCompressed, coded⟩ bytes = .error reason := by
  cases hroute with
  | codeTruncated hkind hshort =>
      simp only [takeRoute, hasRoute_iff.mpr hkind, if_true]
      unfold takeCodedRoute
      split
      · rw [List.length_cons, List.length_cons] at hshort
        omega
      · rfl
  | unknownCode hkind hcode hnone =>
      simp only [takeRoute, hasRoute_iff.mpr hkind, if_true, takeCodedRoute,
        toUInt16_toNatBE_two hcode, hnone]
  | lengthMissing hkind =>
      simp only [takeRoute, hasRoute_iff.mpr hkind, if_true, Bool.false_eq_true, if_false,
        takeWrittenRoute]
  | textTruncated hkind hshort =>
      simp only [takeRoute, hasRoute_iff.mpr hkind, if_true, Bool.false_eq_true, if_false,
        takeWrittenRoute, Bytes.split?_eq_none_iff.mpr hshort]
  | @noText length text rest hkind hlength htext =>
      have hsplit : Bytes.split? length.toNat (text ++ rest) = some (text, rest) :=
        Bytes.split?_eq_some_iff.mpr ⟨hlength.symm, rfl⟩
      simp only [takeRoute, hasRoute_iff.mpr hkind, if_true, Bool.false_eq_true, if_false,
        List.cons_append, takeWrittenRoute, hsplit, toString?_eq_none htext]

end

section

variable (table : RouteTable) {kind : MessageKind}

theorem codedRoute_or_fails (hkind : kind ≠ .response) (bytes : Bytes) :
    (∃ name route rest, bytes = name ++ rest ∧ SpellsRoute table kind true name route) ∨
      ∃ reason, RouteFails table kind true bytes reason := by
  match bytes with
  | [] | [_] => exact .inr ⟨_, .codeTruncated hkind (by simp)⟩
  | high :: low :: rest =>
      have hfits : 256 * high.toNat + low.toNat < 2 ^ 16 := by
        have hhigh := high.toNat_lt
        have hlow := low.toNat_lt
        omega
      have hcode : (UInt16.ofNat (256 * high.toNat + low.toNat)).toNat =
          256 * high.toNat + low.toNat := UInt16.toNat_ofNat_of_lt' hfits
      cases hknown : table.route? (UInt16.ofNat (256 * high.toNat + low.toNat)) with
      | none => exact .inr ⟨_, .unknownCode hkind hcode hknown⟩
      | some route => exact .inl ⟨[high, low], route, rest, rfl, .code hkind hcode hknown⟩

theorem writtenRoute_or_fails (hkind : kind ≠ .response) (bytes : Bytes) :
    (∃ name route rest, bytes = name ++ rest ∧ SpellsRoute table kind false name route) ∨
      ∃ reason, RouteFails table kind false bytes reason := by
  match bytes with
  | [] => exact .inr ⟨_, .lengthMissing hkind⟩
  | length :: more =>
      cases hsplit : Bytes.split? length.toNat more with
      | none => exact .inr ⟨_, .textTruncated hkind (Bytes.split?_eq_none_iff.mp hsplit)⟩
      | some parts =>
          obtain ⟨text, rest⟩ := parts
          obtain ⟨hlength, rfl⟩ := Bytes.split?_eq_some_iff.mp hsplit
          by_cases htext : ∃ route, text = Bytes.ofString route
          · obtain ⟨route, rfl⟩ := htext
            exact .inl ⟨length :: Bytes.ofString route, route, rest, rfl,
              .written hkind hlength.symm⟩
          · exact .inr ⟨_, .noText hkind hlength.symm (not_exists.mp htext)⟩

theorem spellsRoute_or_fails (kind : MessageKind) (coded : Bool) (bytes : Bytes) :
    (∃ name route rest, bytes = name ++ rest ∧ SpellsRoute table kind coded name route) ∨
      ∃ reason, RouteFails table kind coded bytes reason := by
  by_cases hkind : kind = .response
  · exact .inl ⟨[], "", bytes, rfl, hkind ▸ .absent⟩
  · cases coded with
    | true => exact codedRoute_or_fails table hkind bytes
    | false => exact writtenRoute_or_fails table hkind bytes

end

theorem Unpacks.readPayload_eq {isCompressed : Bool} {body payload : Bytes}
    (hbody : Unpacks isCompressed body payload) (kind : MessageKind) (isError coded : Bool) :
    readPayload ⟨kind, isError, isCompressed, coded⟩ body = .ok payload := by
  cases hbody with
  | plain => rfl
  | inflated hbody => simp [readPayload, hbody, Except.mapError]

theorem unpacks_or_fails (compressed : Bool) (body : Bytes) :
    (∃ payload, Unpacks compressed body payload) ∨
      compressed = true ∧ ∃ reason, Gzip.decompress body = .error reason := by
  cases compressed with
  | false => exact .inl ⟨body, .plain⟩
  | true =>
      cases hbody : Gzip.decompress body with
      | ok payload => exact .inl ⟨payload, .inflated hbody⟩
      | error reason => exact .inr ⟨rfl, reason, rfl⟩

section

variable {table : RouteTable} {bytes : Bytes}

theorem Spells.decode_eq {message : Message} (hspells : Spells table bytes message) :
    decode table bytes = .ok message := by
  cases hspells with
  | parts hkind hid hroute hbody =>
      simp only [decode, Flags.ofByte_of_kind hkind, bind, Except.bind, hid.takeId_eq,
        hroute.takeRoute_eq, hbody.readPayload_eq]
      rfl

theorem Rejects.decode_eq {reason : DecodeError} (hrejects : Rejects table bytes reason) :
    decode table bytes = .error reason := by
  cases hrejects with
  | empty => rfl
  | kind hcode hkind =>
      simp only [decode, Flags.ofByte_of_noKind hcode hkind, bind, Except.bind]
  | id hkind hid =>
      simp only [decode, Flags.ofByte_of_kind hkind, bind, Except.bind, hid.takeId_eq]
  | route hkind hid hroute =>
      simp only [decode, Flags.ofByte_of_kind hkind, bind, Except.bind, hid.takeId_eq,
        hroute.takeRoute_eq]
  | content hkind hid hroute hcompressed hbody =>
      simp only [decode, Flags.ofByte_of_kind hkind, bind, Except.bind, hid.takeId_eq,
        hroute.takeRoute_eq, readPayload, hcompressed, if_true, hbody, Except.mapError]

/-- Any bytes are a message or there is a reason why they are none. -/
theorem spells_or_rejects (table : RouteTable) (bytes : Bytes) :
    (∃ message, Spells table bytes message) ∨ ∃ reason, Rejects table bytes reason := by
  cases bytes with
  | nil => exact .inr ⟨_, .empty⟩
  | cons byte rest =>
      obtain ⟨kind, hcode⟩ | ⟨hlarge, -⟩ := Flags.exists_kind_or_le (Flags.kindCode byte)
      · have hkind : byte.toNat / 2 % 8 = kind.code.toNat := by
          rw [hcode, Flags.toNat_kindCode]
        obtain ⟨groups, id, rest, rfl, hid⟩ | ⟨reason, hid⟩ := spellsId_or_fails kind rest
        · obtain ⟨name, route, body, rfl, hroute⟩ | ⟨reason, hroute⟩ :=
            spellsRoute_or_fails table kind (byte.toNat.testBit 0) rest
          · obtain ⟨payload, hbody⟩ | ⟨hcompressed, reason, hbody⟩ :=
              unpacks_or_fails (byte.toNat.testBit 4) body
            · exact .inl ⟨_, .parts hkind hid hroute hbody⟩
            · exact .inr ⟨_, .content hkind hid hroute hcompressed hbody⟩
          · exact .inr ⟨_, .route hkind hid hroute⟩
        · exact .inr ⟨_, .id hkind hid⟩
      · exact .inr ⟨_, .kind (Flags.toNat_kindCode byte) hlarge⟩

theorem decode_eq_ok_iff {message : Message} :
    decode table bytes = .ok message ↔ Spells table bytes message := by
  refine ⟨fun hdecoded => ?_, Spells.decode_eq⟩
  obtain ⟨other, hspells⟩ | ⟨reason, hrejects⟩ := spells_or_rejects table bytes
  · obtain rfl : other = message := Except.ok.inj (hspells.decode_eq.symm.trans hdecoded)
    exact hspells
  · cases hrejects.decode_eq.symm.trans hdecoded

theorem decode_of_response {message : Message} (hdecode : decode table bytes = .ok message)
    (hkind : message.kind = .response) (other : RouteTable) :
    decode other bytes = .ok message := by
  rw [decode_eq_ok_iff] at hdecode ⊢
  obtain @⟨byte, kind, groups, name, body, payload, id, route, hcode, hid, hroute, hbody⟩ := hdecode
  obtain rfl : kind = .response := hkind
  refine .parts hcode hid ?_ hbody
  generalize byte.toNat.testBit 0 = coded at hroute ⊢
  cases hroute with
  | absent => exact .absent
  | code hother => exact absurd rfl hother
  | written hother => exact absurd rfl hother

theorem decode_eq_error_iff {reason : DecodeError} :
    decode table bytes = .error reason ↔ Rejects table bytes reason := by
  refine ⟨fun hdecoded => ?_, Rejects.decode_eq⟩
  obtain ⟨message, hspells⟩ | ⟨other, hrejects⟩ := spells_or_rejects table bytes
  · cases hspells.decode_eq.symm.trans hdecoded
  · obtain rfl : other = reason := Except.error.inj (hrejects.decode_eq.symm.trans hdecoded)
    exact hrejects

theorem suffix_of_takeId {kind : MessageKind} {id : UInt32} {rest : Bytes}
    (htaken : takeId kind bytes = .ok (id, rest)) : rest <:+ bytes := by
  obtain ⟨groups, other, left, rfl, hid⟩ | ⟨reason, hid⟩ := spellsId_or_fails kind bytes
  · rw [hid.takeId_eq, Except.ok.injEq, Prod.mk.injEq] at htaken
    obtain ⟨-, rfl⟩ := htaken
    exact List.suffix_append groups left
  · cases hid.takeId_eq.symm.trans htaken

theorem suffix_of_takeRoute {flags : Flags} {route : String} {rest : Bytes}
    (htaken : takeRoute table flags bytes = .ok (route, rest)) : rest <:+ bytes := by
  obtain ⟨kind, isError, isCompressed, coded⟩ := flags
  obtain ⟨name, other, left, rfl, hroute⟩ | ⟨reason, hroute⟩ :=
    spellsRoute_or_fails table kind coded bytes
  · rw [hroute.takeRoute_eq, Except.ok.injEq, Prod.mk.injEq] at htaken
    obtain ⟨-, rfl⟩ := htaken
    exact List.suffix_append name left
  · cases (hroute.takeRoute_eq isError isCompressed).symm.trans htaken

theorem decode_congr {byte other : UInt8} {rest : Bytes}
    (hbits : byte.toNat / 2 % 32 = other.toNat / 2 % 32)
    (hcoded : byte.toNat / 2 % 8 = 2 ∨ byte.toNat % 2 = other.toNat % 2) :
    decode table (byte :: rest) = decode table (other :: rest) := by
  rcases hcoded with hresponse | hcoded
  · have hother : other.toNat / 2 % 8 = 2 := by omega
    rw [decode, decode, @Flags.ofByte_of_kind _ .response hresponse,
      @Flags.ofByte_of_kind _ .response hother,
      Flags.testBit_congr hbits (by decide : 3 < 5), Flags.testBit_congr hbits (by decide : 4 < 5)]
    rfl
  · rw [decode, decode, Flags.ofByte_congr hcoded hbits]

end

/-- How bytes are judged. -/
structure DecodesGrammar (table : RouteTable) (bytes : Bytes) : Prop where
  ok_iff : ∀ message, decode table bytes = .ok message ↔ Spells table bytes message
  error_iff : ∀ reason, decode table bytes = .error reason ↔ Rejects table bytes reason
  /-- No bytes are left without a verdict. -/
  judged : (∃ message, Spells table bytes message) ∨ ∃ reason, Rejects table bytes reason
  /-- Each part is looked for in bytes that are there. -/
  id_within : ∀ kind id rest, takeId kind bytes = .ok (id, rest) → rest <:+ bytes
  route_within : ∀ flags route rest,
    takeRoute table flags bytes = .ok (route, rest) → rest <:+ bytes
  /-- Neither the two highest bits make a difference nor, in a response, the lowest. -/
  unused_bits : ∀ byte other rest, bytes = byte :: rest →
    byte.toNat / 2 % 32 = other.toNat / 2 % 32 →
      (byte.toNat / 2 % 8 = 2 ∨ byte.toNat % 2 = other.toNat % 2) →
        decode table bytes = decode table (other :: rest)

/-- Bytes are accepted exactly if they are made up of the parts of a message, and otherwise the
first part that is wrong is named. -/
theorem decode_decodesGrammar (table : RouteTable) (bytes : Bytes) :
    DecodesGrammar table bytes where
  ok_iff _ := decode_eq_ok_iff
  error_iff _ := decode_eq_error_iff
  judged := spells_or_rejects table bytes
  id_within _ _ _ := suffix_of_takeId
  route_within _ _ _ := suffix_of_takeRoute
  unused_bits := by
    rintro byte other rest rfl hbits hcoded
    exact decode_congr hbits hcoded

/-- An id with a group that adds nothing is accepted, and a route that is no UTF-8 is not. -/
example :
    decode .empty [0, 129, 0, 1, 97, 7] =
        .ok { kind := .request, id := 1, route := "a", payload := [7] } ∧
      decode .empty [0, 129, 0, 1, 255, 7] = .error .invalidRoute := by
  decide +kernel

end RoutedSession.Message
