import RoutedSession.Proofs.Message.Grammar

namespace RoutedSession.Message

/-- Bytes that are a message and leave a writer no choice: in the flags only those bits are set that
mean something, each group of the id is needed, the route is given by its code if it has one, and
the content is plain. -/
inductive Normal (table : RouteTable) : Bytes → Message → Prop where
  | parts {byte : UInt8} {kind : MessageKind} {isError coded : Bool} {groups name payload : Bytes}
      {id : UInt32} {route : String}
      (hbyte : byte.toNat = 2 * kind.code.toNat + coded.toNat + 32 * isError.toNat)
      (hid : SpellsId kind groups id) (hshortest : groups = [] ∨ Varint.Shortest groups)
      (hroute : SpellsRoute table kind coded name route)
      (hcoded : coded = true ↔ kind ≠ .response ∧ table.code? route ≠ none) :
      Normal table (byte :: (groups ++ (name ++ payload)))
        ⟨kind, id, route, payload, isError, false⟩

/-- What becomes of a message that was read from some bytes when it is sent on. -/
structure SendsOn (table : RouteTable) (bytes : Bytes) (message : Message) : Prop where
  /-- It is written in its normal form, which is read as the same message and written again as the
  same bytes. Only that the content arrived compressed is forgotten. -/
  exists_written : ∃ written, message.encode table = .ok written ∧
    decode table written = .ok { message with compressed := false } ∧
      ({ message with compressed := false } : Message).encode table = .ok written ∧
        Normal table written { message with compressed := false }
  /-- There is one normal form. -/
  unique : ∀ written, Normal table written { message with compressed := false } ↔
    message.encode table = .ok written
  /-- The bytes are written as they were if they were in normal form, and only then. -/
  unchanged_iff : message.encode table = .ok bytes ↔ Normal table bytes message

namespace Flags

theorem toNat_byte (flags : Flags) (hplain : flags.isCompressed = false) :
    flags.byte.toNat =
      2 * flags.kind.code.toNat + flags.hasRouteCode.toNat + 32 * flags.isError.toNat := by
  obtain ⟨kind, isError, isCompressed, hasRouteCode⟩ := flags
  obtain rfl : isCompressed = false := hplain
  cases kind <;> cases isError <;> cases hasRouteCode <;> rfl

theorem bits_of_toNat {byte : UInt8} {kind : MessageKind} {coded isError : Bool}
    (hbyte : byte.toNat = 2 * kind.code.toNat + coded.toNat + 32 * isError.toNat) :
    byte.toNat / 2 % 8 = kind.code.toNat ∧ byte.toNat.testBit 0 = coded ∧
      byte.toNat.testBit 4 = false ∧ byte.toNat.testBit 5 = isError := by
  cases kind <;> cases coded <;> cases isError <;> rw [hbyte] <;> decide

end Flags

section

variable {table : RouteTable} {message : Message} {bytes : Bytes}

theorem encode_eq_ok_iff : message.encode table = .ok bytes ↔
    ∃ name, message.routeBytes table = .ok name ∧
      bytes = (message.flags table).byte :: (message.idBytes ++ (name ++ message.payload)) := by
  unfold encode
  cases hname : message.routeBytes table <;> simp [Except.map, eq_comm]

theorem encode_normal (table : RouteTable) (message : Message) :
    message.normal.encode table = message.encode table := by
  have hid : message.normal.idBytes = message.idBytes := by
    unfold idBytes normal
    dsimp only
    split <;> rfl
  have hcode : message.normal.routeCode? table = message.routeCode? table := by
    unfold routeCode? normal
    dsimp only
    split <;> rfl
  have hroute : message.normal.routeBytes table = message.routeBytes table := by
    unfold routeBytes normal
    dsimp only
    split <;> rfl
  have hflags : message.normal.flags table = message.flags table := by
    unfold flags
    rw [hcode]
    rfl
  rw [encode, encode, hid, hroute, hflags]
  rfl

theorem spellsId_idBytes (message : Message) :
    SpellsId message.kind message.idBytes message.normal.id ∧
      (message.idBytes = [] ∨ Varint.Shortest message.idBytes) := by
  unfold idBytes normal
  dsimp only
  by_cases hkind : message.kind = .request ∨ message.kind = .response
  · rw [if_pos (hasId_iff.mpr hkind), if_pos (hasId_iff.mpr hkind)]
    obtain ⟨hspells, hshortest⟩ := Varint.spells_encode message.id
    exact ⟨.number hkind hspells, .inr hshortest⟩
  · have hnone : ¬ message.kind.hasId = true := fun hid => hkind (hasId_iff.mp hid)
    rw [if_neg hnone, if_neg hnone]
    refine ⟨.absent ?_, .inl rfl⟩
    cases hmessage : message.kind <;> simp_all

theorem isSome_routeCode?_iff : (message.routeCode? table).isSome = true ↔
    message.kind ≠ .response ∧ table.code? message.normal.route ≠ none := by
  unfold routeCode? normal
  dsimp only
  by_cases hkind : message.kind = .response
  · simp [hkind, MessageKind.hasRoute]
  · simp [hasRoute_iff.mpr hkind, hkind, Option.isSome_iff_ne_none]

theorem spellsRoute_routeBytes (hname : message.routeBytes table = .ok bytes) :
    SpellsRoute table message.kind (message.routeCode? table).isSome bytes
      message.normal.route := by
  unfold routeBytes at hname
  unfold routeCode? normal
  dsimp only
  split at hname
  · rename_i hroute
    rw [if_pos hroute, if_pos hroute]
    have hkind := hasRoute_iff.mp hroute
    split at hname
    · rename_i code hcode
      obtain rfl := Except.ok.inj hname
      rw [hcode]
      have hback := RouteTable.route?_eq_some_iff.mpr (RouteTable.code?_eq_some_iff.mp hcode)
      refine .code hkind ?_ hback
      have hfits : code.toNat < 256 ^ 2 := code.toNat_lt
      have hread := Bytes.toNatBE_ofNatBE 2 code.toNat
      rw [Nat.mod_eq_of_lt hfits] at hread
      simpa only [Bytes.ofNatBE, Bytes.toNatBE, List.foldl_cons, List.foldl_nil, Nat.mul_zero,
        Nat.zero_add] using hread.symm
    · rename_i hcode
      dsimp only at hname
      split at hname
      · rename_i hshort
        obtain rfl := Except.ok.inj hname
        rw [hcode]
        exact .written hkind (Varint.toNat_toUInt8 (Nat.lt_succ_of_le hshort))
      · cases hname
  · rename_i hroute
    rw [if_neg hroute, if_neg hroute]
    obtain rfl := Except.ok.inj hname
    have hkind : message.kind = .response := by
      by_contra hother
      exact hroute (hasRoute_iff.mpr hother)
    rw [hkind]
    exact .absent

/-- A message is written in its normal form. -/
theorem normal_of_encode (hencode : message.encode table = .ok bytes) :
    Normal table bytes message.normal := by
  obtain ⟨name, hname, rfl⟩ := encode_eq_ok_iff.mp hencode
  obtain ⟨hid, hshortest⟩ := message.spellsId_idBytes
  exact .parts ((message.flags table).toNat_byte rfl) hid hshortest
    (spellsRoute_routeBytes hname) isSome_routeCode?_iff

theorem Normal.spells (hnormal : Normal table bytes message) : Spells table bytes message := by
  cases hnormal with
  | @parts byte kind isError coded groups name payload id route hbyte hid hshortest hroute hcoded =>
      obtain ⟨hkind, hcode, hplain, herror⟩ := Flags.bits_of_toNat hbyte
      have hspells := @Spells.parts table byte kind groups name payload payload id route hkind hid
        (hcode.symm ▸ hroute) (hplain.symm ▸ .plain)
      rwa [hplain, herror] at hspells

theorem SpellsId.idBytes_eq {groups : Bytes} (hid : SpellsId message.kind groups message.id)
    (hshortest : groups = [] ∨ Varint.Shortest groups) : message.idBytes = groups := by
  unfold idBytes
  generalize message.kind = kind at hid ⊢
  generalize message.id = id at hid ⊢
  cases hid with
  | number hkind hgroups =>
      rw [if_pos (hasId_iff.mpr hkind)]
      refine Varint.encode_eq_iff.mpr ⟨hgroups, hshortest.resolve_left ?_⟩
      cases hgroups with
      | groups => exact List.append_ne_nil_of_right_ne_nil _ (List.cons_ne_nil _ _)
  | absent hkind => obtain rfl | rfl := hkind <;> rfl

theorem SpellsRoute.routeBytes_eq {coded : Bool} {name : Bytes}
    (hroute : SpellsRoute table message.kind coded name message.route)
    (hcoded : coded = true ↔ message.kind ≠ .response ∧ table.code? message.route ≠ none) :
    message.routeBytes table = .ok name := by
  unfold routeBytes
  generalize message.kind = kind at hroute hcoded ⊢
  generalize message.route = route at hroute hcoded ⊢
  cases hroute with
  | @code _ high low code _ hkind hcode hknown =>
      have hback := RouteTable.code?_eq_some_iff.mpr (RouteTable.route?_eq_some_iff.mp hknown)
      have hread : Bytes.toNatBE [high, low] = code.toNat := by
        simp [Bytes.toNatBE, hcode]
      have hwritten : Bytes.ofNatBE 2 (Bytes.toNatBE [high, low]) = [high, low] :=
        Bytes.ofNatBE_toNatBE [high, low]
      rw [if_pos (hasRoute_iff.mpr hkind), hback, ← hwritten, hread]
  | @written _ length _ hkind hlength =>
      have hnone : table.code? route = none := by
        by_contra hsome
        cases hcoded.mpr ⟨hkind, hsome⟩
      have hshort : (Bytes.ofString route).length ≤ maxRouteLength := by
        rw [← hlength]
        exact Nat.le_of_lt_succ length.toNat_lt
      have hbyte : (Bytes.ofString route).length.toUInt8 = length := by
        rw [← hlength]
        exact UInt8.ofNat_toNat
      rw [if_pos (hasRoute_iff.mpr hkind), hnone]
      dsimp only
      rw [if_pos hshort, hbyte]
  | absent => rfl

theorem Normal.encode_eq (hnormal : Normal table bytes message) :
    message.encode table = .ok bytes := by
  have hspells := hnormal.spells
  cases hnormal with
  | @parts byte kind isError coded groups name payload id route hbyte hid hshortest hroute hcoded =>
      refine encode_eq_ok_iff.mpr ⟨name, SpellsRoute.routeBytes_eq hroute hcoded, ?_⟩
      rw [SpellsId.idBytes_eq hid hshortest]
      congr 1
      rw [← UInt8.toNat_inj, hbyte, Flags.toNat_byte _ rfl]
      have hsame :
          (routeCode? table ⟨kind, id, route, payload, isError, false⟩).isSome = coded := by
        rw [Bool.eq_iff_iff, isSome_routeCode?_iff, hcoded]
        refine and_congr_right fun hkind => ?_
        rw [normal, if_pos (hasRoute_iff.mpr hkind)]
      rw [flags, hsame]

theorem Spells.normal_eq (hspells : Spells table bytes message) :
    message.normal = { message with compressed := false } := by
  cases hspells with
  | @parts byte kind groups name body payload id route hkind hid hroute hbody =>
      have hidNormal : (if kind.hasId then id else 0) = id := by
        cases hid with
        | number hkind => exact if_pos (hasId_iff.mpr hkind)
        | absent => exact ite_self _
      have hrouteNormal : (if kind.hasRoute then route else "") = route := by
        generalize byte.toNat.testBit 0 = coded at hroute
        cases hroute with
        | code hkind | written hkind => exact if_pos (hasRoute_iff.mpr hkind)
        | absent => rfl
      simp only [normal, hidNormal, hrouteNormal]

theorem Spells.exists_encode (hspells : Spells table bytes message) :
    ∃ written, message.encode table = .ok written := by
  cases hname : message.routeBytes table with
  | ok name => exact ⟨_, encode_eq_ok_iff.mpr ⟨name, hname, rfl⟩⟩
  | error error =>
      obtain ⟨⟨-, hnone, hlong⟩, -⟩ := routeBytes_eq_error_iff.mp hname
      cases hspells with
      | @parts byte kind groups _ body payload id route hkind hid hroute hbody =>
          dsimp only at hnone hlong
          generalize byte.toNat.testBit 0 = coded at hroute
          cases hroute with
          | code hkind hcode hknown =>
              have hback :=
                RouteTable.code?_eq_some_iff.mpr (RouteTable.route?_eq_some_iff.mp hknown)
              cases hnone.symm.trans hback
          | @written _ length _ hkind hlength =>
              rw [← length_ofString, ← hlength] at hlong
              exact absurd length.toNat_lt (Nat.not_lt.mpr hlong)
          | absent => exact absurd hlong (by decide)

/-- Whatever bytes a message was read from, it can be sent on, and in one form only. -/
theorem encode_sendsOn (hdecode : decode table bytes = .ok message) :
    SendsOn table bytes message := by
  have hspells := decode_eq_ok_iff.mp hdecode
  have hnormal := hspells.normal_eq
  have hplain : ({ message with compressed := false } : Message).encode table =
      message.encode table := by
    rw [← hnormal, encode_normal]
  constructor
  case exists_written =>
    obtain ⟨written, hwritten⟩ := hspells.exists_encode
    have hform := normal_of_encode hwritten
    rw [hnormal] at hform
    exact ⟨written, hwritten, hform.spells.decode_eq, hplain.trans hwritten, hform⟩
  case unique =>
    intro written
    constructor
    · intro hform
      rw [← hplain, hform.encode_eq]
    · intro hwritten
      rw [← hnormal]
      exact normal_of_encode hwritten
  case unchanged_iff =>
    refine ⟨fun hsame => ?_, Normal.encode_eq⟩
    have hform := normal_of_encode hsame
    have hread := hform.spells.decode_eq
    rw [hdecode] at hread
    rwa [← Except.ok.inj hread] at hform

end

/-- An id with a group that adds nothing, flags without a meaning and a route that is written out
though it has a code: the message is sent on in five bytes instead of six. -/
theorem encode_sendsOn_slack :
    let table := RouteTable.ofList [("a", 7)]
    let message : Message := { kind := .request, id := 1, route := "a", payload := [9] }
    decode table [0xC0, 0x81, 0x00, 1, 97, 9] = .ok message ∧
      message.encode table = .ok [0x01, 0x01, 0x00, 0x07, 9] ∧
        Normal table [0x01, 0x01, 0x00, 0x07, 9] message := by
  intro table message
  have hdecode : decode table [0xC0, 0x81, 0x00, 1, 97, 9] = .ok message := by decide +kernel
  have hencode : message.encode table = .ok [0x01, 0x01, 0x00, 0x07, 9] := by decide +kernel
  exact ⟨hdecode, hencode, ((encode_sendsOn hdecode).unique _).mpr hencode⟩

end RoutedSession.Message
