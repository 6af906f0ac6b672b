import RoutedSession.Proofs.Message.NormalForm

namespace RoutedSession.Message

/-- What the beginnings of the bytes are read as that a message was written as. -/
structure ReadsCutOff (sender : RouteTable) (message : Message) (bytes : Bytes) : Prop where
  whole : decode sender bytes = .ok message.normal
  /-- The content stands at the end. -/
  content : message.payload <:+ bytes
  /-- Whatever codes the reader has, nothing else is found wrong with bytes that end before the
  content. -/
  before_content : ∀ receiver count, count < bytes.length - message.payload.length →
    decode receiver (bytes.take count) = .error .truncated
  /-- Bytes that end later are read as all of them are, with less content. -/
  within_content : ∀ receiver count, bytes.length - message.payload.length ≤ count →
    decode receiver (bytes.take count) = (decode receiver bytes).map fun read =>
      { read with
        payload := message.payload.take (count - (bytes.length - message.payload.length)) }

section

variable {kind : MessageKind}

theorem SpellsId.fails_take {groups : Bytes} {id : UInt32} (hid : SpellsId kind groups id)
    {count : Nat} (hcount : count < groups.length) :
    IdFails kind (groups.take count) .truncated := by
  cases hid with
  | number hkind hgroups => exact .truncated hkind (hgroups.fails_take hcount)
  | absent => cases hcount

theorem SpellsRoute.fails_take {table : RouteTable} {coded : Bool} {name : Bytes} {route : String}
    (hroute : SpellsRoute table kind coded name route) (receiver : RouteTable) {count : Nat}
    (hcount : count < name.length) :
    RouteFails receiver kind coded (name.take count) .truncated := by
  cases hroute with
  | code hkind =>
      refine .codeTruncated hkind ?_
      rwa [List.length_take_of_le (Nat.le_of_lt hcount)]
  | @written _ length _ hkind hlength =>
      cases count with
      | zero => exact .lengthMissing hkind
      | succ count =>
          rw [List.take_succ_cons]
          refine .textTruncated hkind ?_
          rw [List.length_cons, Nat.succ_lt_succ_iff] at hcount
          rwa [List.length_take_of_le (Nat.le_of_lt hcount), hlength]
  | absent => cases hcount

theorem rejects_take {table : RouteTable} {byte : UInt8} {groups name : Bytes} {id : UInt32}
    {route : String} (hkind : byte.toNat / 2 % 8 = kind.code.toNat)
    (hid : SpellsId kind groups id)
    (hroute : SpellsRoute table kind (byte.toNat.testBit 0) name route) (receiver : RouteTable)
    {count : Nat} (hcount : count < (byte :: (groups ++ name)).length) :
    Rejects receiver ((byte :: (groups ++ name)).take count) .truncated := by
  cases count with
  | zero => exact .empty
  | succ count =>
      rw [List.length_cons, Nat.succ_lt_succ_iff, List.length_append] at hcount
      rw [List.take_succ_cons]
      rcases Nat.lt_or_ge count groups.length with hwithin | hbehind
      · rw [List.take_append_of_le_length (Nat.le_of_lt hwithin)]
        exact .id hkind (hid.fails_take hwithin)
      · rw [List.take_append, List.take_of_length_le hbehind]
        exact .route hkind hid (hroute.fails_take receiver (by omega))

end

section

variable {sender : RouteTable} {message : Message}

theorem exists_head {bytes : Bytes} (hencode : message.encode sender = .ok bytes) :
    ∃ head, bytes = head ++ message.payload ∧
      (∀ payload, ({ message with payload } : Message).encode sender = .ok (head ++ payload)) ∧
        ∀ receiver count, count < head.length →
          decode receiver (head.take count) = .error .truncated := by
  obtain ⟨name, hname, rfl⟩ := encode_eq_ok_iff.mp hencode
  refine ⟨(message.flags sender).byte :: (message.idBytes ++ name), ?_, fun payload => ?_, ?_⟩
  · rw [List.cons_append, List.append_assoc]
  · rw [List.cons_append, List.append_assoc]
    exact encode_eq_ok_iff.mpr ⟨name, hname, rfl⟩
  · intro receiver count hcount
    obtain ⟨hkind, hcode, -, -⟩ := Flags.bits_of_toNat ((message.flags sender).toNat_byte rfl)
    change _ = (message.routeCode? sender).isSome at hcode
    have hroute := spellsRoute_routeBytes hname
    rw [← hcode] at hroute
    exact (rejects_take hkind message.spellsId_idBytes.1 hroute receiver hcount).decode_eq

theorem arrival_setPayload (sender receiver : RouteTable) (message : Message) (payload : Bytes) :
    ({ message with payload } : Message).arrival sender receiver =
      (message.arrival sender receiver).map ({ · with payload }) := by
  have hroute : ({ message with payload } : Message).arrivingRoute sender receiver =
      message.arrivingRoute sender receiver := rfl
  rw [arrival, arrival, hroute]
  cases message.arrivingRoute sender receiver <;> rfl

/-- Wherever a message that was written is cut off, it is not taken for another one. -/
theorem decode_take_readsCutOff {bytes : Bytes} (hencode : message.encode sender = .ok bytes) :
    ReadsCutOff sender message bytes := by
  obtain ⟨head, rfl, hsame, hcut⟩ := exists_head hencode
  have hlength : (head ++ message.payload).length - message.payload.length = head.length := by
    rw [List.length_append, Nat.add_sub_cancel]
  constructor
  case whole => rw [decode_of_encode hencode, arrival_self]
  case content => exact List.suffix_append head message.payload
  case before_content =>
    intro receiver count hcount
    rw [hlength] at hcount
    rw [List.take_append_of_le_length (Nat.le_of_lt hcount)]
    exact hcut receiver count hcount
  case within_content =>
    intro receiver count hcount
    rw [hlength] at hcount ⊢
    rw [List.take_append, List.take_of_length_le hcount, decode_of_encode (hsame _),
      decode_of_encode hencode, arrival_setPayload]

end

/-- An id of two groups and a route of two bytes that are one letter: six bytes have to be there
before the message is read. -/
theorem decode_take_readsCutOff_letterCutInTwo :
    let message : Message := { kind := .request, id := 300, route := "é", payload := [7, 8] }
    let bytes : Bytes := [0, 0xAC, 2, 2, 0xC3, 0xA9, 7, 8]
    message.encode .empty = .ok bytes ∧
      (∀ count < 6, decode .empty (bytes.take count) = .error .truncated) ∧
        decode .empty (bytes.take 7) = .ok { message with payload := [7] } := by
  intro message bytes
  have hencode : message.encode .empty = .ok bytes := by decide +kernel
  have hcut := decode_take_readsCutOff hencode
  refine ⟨hencode, fun count hcount => hcut.before_content .empty count hcount, ?_⟩
  rw [hcut.within_content .empty 7 (by decide), hcut.whole]
  rfl

end RoutedSession.Message
