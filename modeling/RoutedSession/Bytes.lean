/-!
Byte strings: splitting, numbers written in base 256, and the UTF-8 form of a text.
-/

namespace RoutedSession

/-- A finite string of bytes. -/
abbrev Bytes := List UInt8

namespace Bytes

/-- Whether there are at least `n` bytes. At most `n` of them are looked at. -/
def hasAtLeast : Nat → Bytes → Bool
  | 0, _ => true
  | _ + 1, [] => false
  | n + 1, _ :: rest => hasAtLeast n rest

@[simp] theorem hasAtLeast_eq_true {n : Nat} {bytes : Bytes} :
    hasAtLeast n bytes = true ↔ n ≤ bytes.length := by
  induction n generalizing bytes with
  | zero => simp [hasAtLeast]
  | succ n ih =>
      cases bytes with
      | nil => simp [hasAtLeast]
      | cons b rest => simp [hasAtLeast, ih]

/-- The first `n` bytes and those after them, when there are that many. -/
def split? (n : Nat) (bytes : Bytes) : Option (Bytes × Bytes) :=
  if hasAtLeast n bytes then some (bytes.take n, bytes.drop n) else none

theorem split?_eq_some_iff {n : Nat} {bytes front rest : Bytes} :
    split? n bytes = some (front, rest) ↔ front.length = n ∧ bytes = front ++ rest := by
  unfold split?
  split
  · rename_i henough
    rw [hasAtLeast_eq_true] at henough
    constructor
    · intro hsame
      simp only [Option.some.injEq, Prod.mk.injEq] at hsame
      obtain ⟨rfl, rfl⟩ := hsame
      simp [henough]
    · rintro ⟨rfl, rfl⟩
      simp
  · rename_i hshort
    rw [hasAtLeast_eq_true] at hshort
    simp only [reduceCtorEq, false_iff, not_and]
    rintro rfl rfl
    simp at hshort

theorem split?_eq_none_iff {n : Nat} {bytes : Bytes} :
    split? n bytes = none ↔ bytes.length < n := by
  simp only [split?, ite_eq_right_iff, reduceCtorEq, imp_false, hasAtLeast_eq_true, Nat.not_le]

/-- The number whose digits in base 256 are the bytes, the highest digit first. -/
def toNatBE (bytes : Bytes) : Nat :=
  bytes.foldl (fun n b => 256 * n + b.toNat) 0

/-- The number whose digits in base 256 are the bytes, the lowest digit first. -/
def toNatLE : Bytes → Nat
  | [] => 0
  | b :: rest => b.toNat + 256 * toNatLE rest

/-- The lowest `width` digits of `n` in base 256, the highest of them first. -/
def ofNatBE : (width : Nat) → (n : Nat) → Bytes
  | 0, _ => []
  | width + 1, n => (n / Nat.pow 256 width).toUInt8 :: ofNatBE width n

/-- The lowest `width` digits of `n` in base 256, the lowest of them first. -/
def ofNatLE : (width : Nat) → (n : Nat) → Bytes
  | 0, _ => []
  | width + 1, n => n.toUInt8 :: ofNatLE width (n / 256)

@[simp] theorem length_ofNatBE (width n : Nat) : (ofNatBE width n).length = width := by
  induction width with
  | zero => rfl
  | succ width ih => simp [ofNatBE, ih]

@[simp] theorem length_ofNatLE (width n : Nat) : (ofNatLE width n).length = width := by
  induction width generalizing n with
  | zero => rfl
  | succ width ih => simp [ofNatLE, ih]

/-- A byte as two hexadecimal digits. -/
def hexByte (b : UInt8) : String :=
  String.ofList [Nat.digitChar (b.toNat / 16), Nat.digitChar (b.toNat % 16)]

/-- The UTF-8 form of a text. -/
def ofString (text : String) : Bytes :=
  text.toByteArray.data.toList

/-- The text whose UTF-8 form the bytes are, if they are one. -/
def toString? (bytes : Bytes) : Option String :=
  String.fromUTF8? ⟨bytes.toArray⟩

@[simp] theorem toString?_ofString (text : String) : toString? (ofString text) = some text := by
  have hbytes : (⟨(ofString text).toArray⟩ : ByteArray) = text.toByteArray := by
    simp [ofString]
  simp [toString?, hbytes, String.fromUTF8?, text.isValidUTF8, String.fromUTF8]

theorem eq_ofString_of_toString? {bytes : Bytes} {text : String}
    (hread : toString? bytes = some text) : bytes = ofString text := by
  simp only [toString?, String.fromUTF8?, Option.dite_none_right_eq_some,
    Option.some.injEq] at hread
  obtain ⟨_, rfl⟩ := hread
  simp [ofString, String.fromUTF8]

end Bytes

end RoutedSession
