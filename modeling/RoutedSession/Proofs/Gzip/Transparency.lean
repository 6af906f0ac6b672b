import RoutedSession.Handshake.Answer
import RoutedSession.Proofs.Gzip.Members
import RoutedSession.Proofs.Message.RoundTrip

namespace RoutedSession.Gzip

/-- A written message with the flag for compression set, and with other bytes in the place of its
last `length` ones. -/
def withPayload (payload : Bytes) (length : Nat) : Bytes → Bytes
  | [] => []
  | flags :: rest =>
      (flags ||| Message.Flags.compressedBit) :: (rest.take (rest.length - length) ++ payload)

/-- Whoever receives what a compressor made of a text receives the text. -/
structure Transparent (deflate : Bytes → Bytes) : Prop where
  recognized : ∀ content, isCompressed (deflate content) = true
  restored : ∀ content behind, decompress (deflate content ++ behind) = .ok content
  message : ∀ (table : RouteTable) (message : Message) (bytes : Bytes),
    message.encode table = .ok bytes →
      ∃ arrived, Message.decode table bytes = .ok arrived ∧ ∀ content behind,
        Message.decode table
            (withPayload (deflate content ++ behind) message.payload.length bytes) =
          .ok { arrived with payload := content, compressed := true }
  answer : ∀ text, isCompressed text = false → ∀ behind,
    HandshakeResponse.parse (deflate text ++ behind) = HandshakeResponse.parse text

theorem byte_compressed (flags : Message.Flags) :
    flags.byte ||| Message.Flags.compressedBit = { flags with isCompressed := true }.byte := by
  obtain ⟨kind, isError, isCompressed, hasRouteCode⟩ := flags
  cases kind <;> cases isError <;> cases isCompressed <;> cases hasRouteCode <;> rfl

theorem withPayload_cons (flags : UInt8) (front old payload : Bytes) :
    withPayload payload old.length (flags :: front ++ old) =
      (flags ||| Message.Flags.compressedBit) :: (front ++ payload) := by
  rw [List.cons_append, withPayload, List.length_append, Nat.add_sub_cancel, List.take_left]

theorem arrivingRoute_self (table : RouteTable) (message : Message) :
    message.arrivingRoute table table = .ok message.normal.route := by
  have harrival := message.arrival_self table
  cases hroute : message.arrivingRoute table table with
  | error error => simp [Message.arrival, hroute, Except.map] at harrival
  | ok route =>
      have hsame : { message.normal with route } = message.normal := by
        simpa [Message.arrival, hroute, Except.map] using harrival
      rw [← hsame]

theorem decode_withPayload {table : RouteTable} {message : Message} {bytes : Bytes}
    (hbytes : message.encode table = .ok bytes) (payload : Bytes) :
    Message.decode table (withPayload payload message.payload.length bytes) =
      ((decompress payload).mapError .inflate).map fun content =>
        { message.normal with payload := content, compressed := true } := by
  unfold Message.encode at hbytes
  cases hroute : message.routeBytes table with
  | error error => simp [hroute, Except.map] at hbytes
  | ok route =>
      rw [hroute] at hbytes
      obtain rfl := Except.ok.inj hbytes
      dsimp only
      have hid := Message.takeId_append message (route ++ payload)
      -- The flag for compression does not matter to the route.
      have htaken : Message.takeRoute table
          ⟨message.kind, message.isError, true, (message.routeCode? table).isSome⟩
          (route ++ payload) = .ok (message.normal.route, payload) := by
        have hroute' := Message.takeRoute_append hroute table payload
        rw [arrivingRoute_self] at hroute'
        exact hroute'
      rw [List.cons_append, withPayload_cons, byte_compressed, List.append_assoc]
      simp only [Message.flags, Message.decode, Message.Flags.ofByte_byte, bind, Except.bind, hid,
        htaken, Message.readPayload, if_true]
      cases decompress payload <;> rfl

/-- Whatever members a compressor writes, compression is not seen. -/
theorem transparent_of_members {deflate : Bytes → Bytes}
    (hdeflate : ∀ content, Member content (deflate content)) : Transparent deflate := by
  constructor
  case recognized =>
    intro content
    simpa using (hdeflate content).isCompressed_append []
  case restored => exact fun content => (hdeflate content).decompress_append
  case message =>
    intro table message bytes hbytes
    refine ⟨message.normal, ?_, ?_⟩
    · rw [Message.decode_of_encode hbytes, Message.arrival_self]
    · intro content behind
      rw [decode_withPayload hbytes, (hdeflate content).decompress_append]
      rfl
  case answer =>
    intro text htext behind
    have hplain : HandshakeResponse.plainText (deflate text ++ behind) =
        HandshakeResponse.plainText text := by
      rw [HandshakeResponse.plainText, if_pos ((hdeflate text).isCompressed_append behind),
        (hdeflate text).decompress_append, HandshakeResponse.plainText, htext]
      rfl
    rw [HandshakeResponse.parse, hplain, HandshakeResponse.parse]

/-- The text `hello hello hello`. -/
def greeting : Bytes :=
  [0x68, 0x65, 0x6c, 0x6c, 0x6f, 0x20, 0x68, 0x65, 0x6c, 0x6c, 0x6f, 0x20, 0x68, 0x65, 0x6c, 0x6c,
    0x6f]

/-- One block in the fixed codes. What follows the second `h` repeats ten bytes from six places
before. -/
def deflatedGreeting : Bytes :=
  [0xcb, 0x48, 0xcd, 0xc9, 0xc9, 0x57, 0xc8, 0x40, 0x90, 0x00]

/-- A compressor that knows one text, and stores any other. -/
def deflateGreeting (content : Bytes) : Bytes :=
  if content = greeting then
    [0x1f, 0x8b, 8, 0, 0, 0, 0, 0, 0, 0xff] ++ (deflatedGreeting ++
      ([0x80, 0x88, 0xf9, 0xe5] ++ [0x11, 0, 0, 0]))
  else compress content

theorem data_deflatedGreeting : Deflated.Data greeting deflatedGreeting := by
  have hletter : ∀ b ∈ greeting, PrefixCode.word? Inflate.fixedLiteralLengths b.toNat =
      some (highBits 8 (48 + b.toNat)) := by decide +kernel
  have hend : PrefixCode.word? Inflate.fixedLiteralLengths 256 = some (highBits 7 0) := by
    decide +kernel
  have hlength : PrefixCode.word? Inflate.fixedLiteralLengths (257 + 7) = some (highBits 7 8) := by
    decide +kernel
  have hdistance : PrefixCode.word? Inflate.fixedDistanceLengths 4 = some (highBits 5 4) := by
    decide +kernel
  have hten : Deflated.Steps Inflate.lengthSteps 7 (10 + 0) (lowBits 0 0) := .mk rfl (by decide)
  have hsix : Deflated.Steps Inflate.distanceSteps 4 (5 + 1) (lowBits 1 1) := .mk rfl (by decide)
  have hcopy : Deflated.Repeats 6 10 (greeting.take 7) greeting :=
    ⟨List.take_prefix 7 greeting, by decide, by decide⟩
  have hspells := Deflated.Spells.copy hlength hten hdistance hsix (by decide) hcopy
    (.blockEnd hend)
  have hstep : ∀ place (hplace : place < 7) {bits : List Bool},
      Deflated.Spells Inflate.fixedLiteralLengths Inflate.fixedDistanceLengths
        (greeting.take (place + 1)) bits greeting →
      Deflated.Spells Inflate.fixedLiteralLengths Inflate.fixedDistanceLengths
        (greeting.take place) (highBits 8 (48 + (greeting.getD place 0).toNat) ++ bits)
        greeting := by
    intro place hplace bits hrest
    have hmore : place < greeting.length := Nat.lt_of_lt_of_le hplace (by decide)
    rw [List.take_succ_eq_append_getElem hmore] at hrest
    have hb : greeting.getD place 0 = greeting[place] := by
      rw [List.getD_eq_getElem?_getD, List.getElem?_eq_getElem hmore, Option.getD_some]
    rw [hb]
    exact .byte (hletter _ (List.getElem_mem hmore)) hrest
  have hall := hstep 0 (by decide) <| hstep 1 (by decide) <| hstep 2 (by decide) <|
    hstep 3 (by decide) <| hstep 4 (by decide) <| hstep 5 (by decide) <| hstep 6 (by decide) hspells
  have hblocks : Deflated.Blocks 0 [] _ greeting := .last (.fixed hall)
  exact .mk hblocks (show [false].length < 8 by decide) (by decide +kernel)

theorem member_deflateGreeting (content : Bytes) : Member content (deflateGreeting content) := by
  unfold deflateGreeting
  split
  · rename_i hcontent
    subst hcontent
    have hheader : Header.bytes { time := [0, 0, 0, 0], hints := 0, system := 0xff } =
        [0x1f, 0x8b, 8, 0, 0, 0, 0, 0, 0, 0xff] := by decide
    have hcheck : Bytes.ofNatLE 4 (crc32 greeting).toNat = [0x80, 0x88, 0xf9, 0xe5] := by
      decide +kernel
    have hmember := Member.mk { time := [0, 0, 0, 0], hints := 0, system := 0xff }
      data_deflatedGreeting
    rw [hheader, hcheck] at hmember
    exact hmember
  · exact member_compress content

theorem transparent_deflateGreeting :
    (∀ content, Member content (deflateGreeting content)) ∧ Transparent deflateGreeting :=
  ⟨member_deflateGreeting, transparent_of_members member_deflateGreeting⟩

end RoutedSession.Gzip
