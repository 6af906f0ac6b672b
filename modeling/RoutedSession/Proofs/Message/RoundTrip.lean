import RoutedSession.Message.Codec
import RoutedSession.Proofs.Bytes
import RoutedSession.Proofs.Varint

namespace RoutedSession.Message

/-- A message without what is not written: fields that its kind does not carry, and whether its
content arrived compressed. -/
def normal (message : Message) : Message where
  kind := message.kind
  id := if message.kind.hasId then message.id else 0
  route := if message.kind.hasRoute then message.route else ""
  payload := message.payload
  isError := message.isError
  compressed := false

/-- The route of a message has no code and cannot be written out. -/
def HasTooLongRoute (table : RouteTable) (message : Message) : Prop :=
  message.kind.hasRoute = true ∧ table.code? message.route = none ∧
    maxRouteLength < message.route.utf8ByteSize

instance (table : RouteTable) (message : Message) : Decidable (message.HasTooLongRoute table) :=
  inferInstanceAs (Decidable (_ ∧ _ ∧ _))

/-- The route under which a message arrives. A code means what the receiver's table says. -/
def arrivingRoute (sender receiver : RouteTable) (message : Message) :
    Except DecodeError String :=
  match message.routeCode? sender with
  | none => .ok message.normal.route
  | some code =>
      match receiver.route? code with
      | none => .error (.unknownRoute code)
      | some route => .ok route

/-- What a message that was written with the sender's table is read as with the receiver's. -/
def arrival (sender receiver : RouteTable) (message : Message) : Except DecodeError Message :=
  (message.arrivingRoute sender receiver).map fun route => { message.normal with route }

theorem length_ofString (text : String) : (Bytes.ofString text).length = text.utf8ByteSize := by
  simp [Bytes.ofString]

@[simp] theorem Flags.ofByte_byte (flags : Flags) : Flags.ofByte flags.byte = .ok flags := by
  obtain ⟨kind, isError, isCompressed, hasRouteCode⟩ := flags
  cases kind <;> cases isError <;> cases isCompressed <;> cases hasRouteCode <;> rfl

theorem takeId_append (message : Message) (rest : Bytes) :
    takeId message.kind (message.idBytes ++ rest) = .ok (message.normal.id, rest) := by
  unfold takeId idBytes normal
  split
  · rw [Varint.decode_encode_append]
    rfl
  · rfl

theorem takeCodedRoute_append (table : RouteTable) (code : RouteCode) (rest : Bytes) :
    takeCodedRoute table (Bytes.ofNatBE 2 code.toNat ++ rest) =
      match table.route? code with
      | none => .error (.unknownRoute code)
      | some route => .ok (route, rest) := by
  have hread : (Bytes.toNatBE (Bytes.ofNatBE 2 code.toNat)).toUInt16 = code := by
    have hfits : code.toNat < 256 ^ 2 := code.toNat_lt
    rw [Bytes.toNatBE_ofNatBE, Nat.mod_eq_of_lt hfits]
    exact UInt16.ofNat_toNat
  simp only [Bytes.ofNatBE, List.cons_append, List.nil_append, takeCodedRoute] at hread ⊢
  cases hroute : table.route? code <;> simp only [hread, hroute]

theorem takeWrittenRoute_append {route : String} (hshort : route.utf8ByteSize ≤ maxRouteLength)
    (rest : Bytes) :
    takeWrittenRoute
        ((Bytes.ofString route).length.toUInt8 :: Bytes.ofString route ++ rest) =
      .ok (route, rest) := by
  have hlength : (Bytes.ofString route).length.toUInt8.toNat = (Bytes.ofString route).length :=
    Varint.toNat_toUInt8 (by rw [length_ofString]; exact Nat.lt_succ_of_le hshort)
  have hsplit : Bytes.split? (Bytes.ofString route).length (Bytes.ofString route ++ rest) =
      some (Bytes.ofString route, rest) :=
    Bytes.split?_eq_some_iff.mpr ⟨rfl, rfl⟩
  simp only [List.cons_append, takeWrittenRoute, hlength, hsplit, Bytes.toString?_ofString]

theorem routeBytes_eq_error_iff {table : RouteTable} {message : Message} {error : RouteTooLong} :
    message.routeBytes table = .error error ↔
      message.HasTooLongRoute table ∧ error = ⟨message.route.utf8ByteSize⟩ := by
  unfold routeBytes HasTooLongRoute
  simp only [length_ofString]
  split
  · rename_i hroute
    split
    · rename_i code hcode
      simp [hcode]
    · rename_i hcode
      split
      · rename_i hshort
        simp [hcode, hshort]
      · rename_i hlong
        simp [hroute, hcode, Nat.not_le.mp hlong, eq_comm]
  · rename_i hroute
    simp [hroute]

theorem takeRoute_append {sender : RouteTable} {message : Message} {bytes : Bytes}
    (hbytes : message.routeBytes sender = .ok bytes) (receiver : RouteTable) (rest : Bytes) :
    takeRoute receiver (message.flags sender) (bytes ++ rest) =
      (message.arrivingRoute sender receiver).map (·, rest) := by
  unfold routeBytes at hbytes
  unfold takeRoute flags arrivingRoute routeCode? normal
  dsimp only at hbytes ⊢
  split at hbytes
  · rename_i hroute
    simp only [hroute, if_true]
    split at hbytes
    · rename_i code hcode
      obtain rfl : _ = bytes := by simpa using hbytes
      simp only [hcode, Option.isSome_some, if_true, takeCodedRoute_append]
      split <;> rfl
    · rename_i hcode
      split at hbytes
      · rename_i hshort
        obtain rfl : _ = bytes := by simpa using hbytes
        rw [length_ofString] at hshort
        simp only [hcode, Option.isSome_none, Bool.false_eq_true, if_false,
          takeWrittenRoute_append hshort]
        rfl
      · simp at hbytes
  · rename_i hroute
    obtain rfl : [] = bytes := by simpa using hbytes
    simp [hroute, Except.map]

theorem decode_of_encode {sender : RouteTable} {message : Message} {bytes : Bytes}
    (hbytes : message.encode sender = .ok bytes) (receiver : RouteTable) :
    decode receiver bytes = message.arrival sender receiver := by
  unfold encode at hbytes
  cases hroute : message.routeBytes sender with
  | error error => simp [hroute, Except.map] at hbytes
  | ok route =>
      obtain rfl : _ = bytes := by simpa [hroute, Except.map] using hbytes
      have hkind : (message.flags sender).kind = message.kind := rfl
      have hid := takeId_append message (route ++ message.payload)
      have htaken := takeRoute_append hroute receiver message.payload
      simp only [decode, Flags.ofByte_byte, bind, Except.bind, hkind, hid,
        htaken, arrival]
      cases message.arrivingRoute sender receiver <;> rfl

theorem arrival_self (table : RouteTable) (message : Message) :
    message.arrival table table = .ok message.normal := by
  unfold arrival arrivingRoute routeCode?
  split
  · rfl
  · rename_i code hcode
    split at hcode
    · rename_i hroute
      have hback : table.route? code = some message.route :=
        RouteTable.route?_eq_some_iff.mpr (RouteTable.code?_eq_some_iff.mp hcode)
      simp [hback, hroute, normal, Except.map]
    · simp at hcode

/-- A message is refused only for a route that is too long. Any other is read as what arrives, and
with equal tables nothing but what is not written is lost. -/
theorem decode_encode_between (sender receiver : RouteTable) (message : Message) :
    (message.encode sender).map (decode receiver) =
        (if message.HasTooLongRoute sender then .error ⟨message.route.utf8ByteSize⟩
          else .ok (message.arrival sender receiver)) ∧
      message.arrival sender sender = .ok message.normal := by
  refine ⟨?_, arrival_self sender message⟩
  cases hencoded : message.encode sender with
  | ok bytes =>
      have hwritable : ¬ message.HasTooLongRoute sender := by
        intro hlong
        have hroute := routeBytes_eq_error_iff.mpr ⟨hlong, rfl⟩
        simp [encode, hroute, Except.map] at hencoded
      rw [if_neg hwritable, ← decode_of_encode hencoded receiver]
      rfl
  | error error =>
      have hroute : message.routeBytes sender = .error error := by
        unfold encode at hencoded
        cases h : message.routeBytes sender <;> simp_all [Except.map]
      obtain ⟨hlong, rfl⟩ := routeBytes_eq_error_iff.mp hroute
      rw [if_pos hlong]
      rfl

end RoutedSession.Message
