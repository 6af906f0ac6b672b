import RoutedSession.Packet.Basic

namespace RoutedSession

/-- A packet whose length fits its header. -/
structure Frame where
  packet : Packet
  fits : packet.payload.length ≤ Header.maxLength
  deriving Repr

namespace Frame

/-- A packet as a frame, unless it is too long. -/
def ofPacket (packet : Packet) : Except FramingError Frame :=
  if fits : packet.payload.length ≤ Header.maxLength then .ok ⟨packet, fits⟩
  else .error (.tooLarge packet.payload.length Header.maxLength)

/-- A frame without a payload. -/
def empty (kind : PacketKind) : Frame :=
  ⟨⟨kind, []⟩, by simp⟩

/-- The number of bytes of a frame. -/
def size (frame : Frame) : Nat :=
  Header.size + frame.packet.payload.length

def bytes (frame : Frame) : Bytes :=
  frame.packet.bytes

/-- The header and, unless it is empty, the payload. -/
def slices (frame : Frame) : List Bytes :=
  frame.packet.header.bytes ::
    match frame.packet.payload with
    | [] => []
    | payload => [payload]

theorem flatten_slices (frame : Frame) : frame.slices.flatten = frame.bytes := by
  unfold slices bytes Packet.bytes
  split <;> simp_all

end Frame

namespace Slices

/-- The slices of all frames, in their order. -/
def ofFrames (frames : List Frame) : List Bytes :=
  frames.flatMap Frame.slices

theorem flatten_ofFrames (frames : List Frame) :
    (ofFrames frames).flatten = frames.flatMap Frame.bytes := by
  induction frames with
  | nil => rfl
  | cons frame rest ih =>
      simp only [ofFrames, List.flatMap_cons, List.flatten_append, Frame.flatten_slices] at *
      rw [ih]

/-- What is left of the slices without their first `n` bytes. A slice that is used up is left
out. -/
def drop : (n : Nat) → List Bytes → List Bytes
  | _, [] => []
  | n, slice :: rest =>
      if Bytes.hasAtLeast (n + 1) slice then slice.drop n :: rest
      else drop (n - slice.length) rest

theorem flatten_drop (n : Nat) (slices : List Bytes) :
    (drop n slices).flatten = slices.flatten.drop n := by
  induction slices generalizing n with
  | nil => simp [drop]
  | cons slice rest ih =>
      unfold drop
      split
      · rename_i hlonger
        rw [Bytes.hasAtLeast_eq_true] at hlonger
        simp [List.drop_append_of_le_length (Nat.le_of_succ_le hlonger)]
      · rename_i hshort
        rw [Bytes.hasAtLeast_eq_true, Nat.not_le] at hshort
        rw [ih, List.flatten_cons, List.drop_append,
          List.drop_eq_nil_of_le (Nat.le_of_lt_succ hshort), List.nil_append]

/-- The first `n` bytes of the slices, or all of them if there are fewer. -/
def take : (n : Nat) → List Bytes → Bytes
  | _, [] => []
  | n, slice :: rest =>
      if Bytes.hasAtLeast n slice then slice.take n
      else slice ++ take (n - slice.length) rest

theorem take_eq (n : Nat) (slices : List Bytes) : take n slices = slices.flatten.take n := by
  induction slices generalizing n with
  | nil => simp [take]
  | cons slice rest ih =>
      unfold take
      split
      · rename_i henough
        rw [Bytes.hasAtLeast_eq_true] at henough
        simp [List.take_append_of_le_length henough]
      · rename_i hshort
        rw [Bytes.hasAtLeast_eq_true, Nat.not_le] at hshort
        rw [ih, List.flatten_cons, List.take_append, List.take_of_length_le (Nat.le_of_lt hshort)]

end Slices

end RoutedSession
