import Mathlib.Tactic.Ring
import RoutedSession.Gzip.BitSource

namespace RoutedSession.Gzip

/-- The lowest `count` bits of a number, the lowest first. -/
def lowBits : (count : Nat) → (n : Nat) → List Bool
  | 0, _ => []
  | count + 1, n => n.testBit 0 :: lowBits count (n / 2)

/-- All bits of a byte string, the lowest of each byte first. -/
def bitsOf (bytes : Bytes) : List Bool :=
  bytes.flatMap fun b => lowBits 8 b.toNat

@[simp] theorem length_lowBits (count n : Nat) : (lowBits count n).length = count := by
  induction count generalizing n with
  | zero => rfl
  | succ count ih => simp [lowBits, ih]

theorem lowBits_injective {count m n : Nat} (hm : m < 2 ^ count) (hn : n < 2 ^ count)
    (hbits : lowBits count m = lowBits count n) : m = n := by
  induction count generalizing m n with
  | zero => omega
  | succ count ih =>
      rw [Nat.pow_succ] at hm hn
      simp only [lowBits, Nat.testBit_zero, List.cons.injEq, decide_eq_decide] at hbits
      have hhigh := ih (by omega) (by omega) hbits.2
      have hlow := hbits.1
      omega

@[simp] theorem bitsOf_nil : bitsOf [] = [] :=
  rfl

@[simp] theorem bitsOf_cons (b : UInt8) (rest : Bytes) :
    bitsOf (b :: rest) = lowBits 8 b.toNat ++ bitsOf rest :=
  List.flatMap_cons

@[simp] theorem bitsOf_append (front rest : Bytes) :
    bitsOf (front ++ rest) = bitsOf front ++ bitsOf rest :=
  List.flatMap_append

@[simp] theorem length_bitsOf (bytes : Bytes) : (bitsOf bytes).length = 8 * bytes.length := by
  induction bytes with
  | nil => rfl
  | cons b rest ih =>
      rw [bitsOf_cons, List.length_append, length_lowBits, ih, List.length_cons]
      omega

theorem exists_append_of_bitsOf {bytes front : Bytes} {after : List Bool}
    (hbits : bitsOf bytes = bitsOf front ++ after) :
    ∃ rest, bytes = front ++ rest ∧ bitsOf rest = after := by
  induction front generalizing bytes with
  | nil => exact ⟨bytes, rfl, hbits⟩
  | cons b front ih =>
      cases bytes with
      | nil =>
          have hlength := congrArg List.length hbits
          simp only [length_bitsOf, List.length_append, List.length_cons, List.length_nil]
            at hlength
          omega
      | cons c bytes =>
          rw [bitsOf_cons, bitsOf_cons, List.append_assoc] at hbits
          obtain ⟨hbyte, hrest⟩ := List.append_inj hbits (by simp)
          obtain ⟨rest, rfl, hafter⟩ := ih hrest
          obtain rfl : c = b :=
            UInt8.toNat_inj.mp (lowBits_injective c.toNat_lt b.toNat_lt hbyte)
          exact ⟨rest, rfl, hafter⟩

theorem bitsOf_injective {bytes front : Bytes} (hbits : bitsOf bytes = bitsOf front) :
    bytes = front := by
  rw [← List.append_nil (bitsOf front)] at hbits
  obtain ⟨rest, rfl, hrest⟩ := exists_append_of_bitsOf hbits
  have hlength := congrArg List.length hrest
  simp only [length_bitsOf, List.length_nil] at hlength
  simp [List.eq_nil_of_length_eq_zero (show rest.length = 0 by omega)]

namespace BitSource

/-- Behind the first `position` bits of a byte string, a source holds the bits that are left. -/
structure Holds (source : BitSource) (position : Nat) (bits : List Bool) : Prop where
  short : source.begun.length < 8
  aligned : (position + source.begun.length) % 8 = 0
  bits_eq : source.begun ++ bitsOf source.bytes = bits

variable {source : BitSource} {position : Nat} {after : List Bool}

theorem holds_ofBytes (haligned : position % 8 = 0) (bytes : Bytes) :
    (ofBytes bytes).Holds position (bitsOf bytes) where
  short := by simp [ofBytes]
  aligned := by simpa [ofBytes] using haligned
  bits_eq := rfl

theorem Holds.next? {bit : Bool} (hsource : source.Holds position (bit :: after)) :
    ∃ rest, source.next? = some (bit, rest) ∧ rest.Holds (position + 1) after := by
  obtain ⟨begun, bytes⟩ := source
  obtain ⟨hshort, haligned, hbits⟩ := hsource
  dsimp only at hshort haligned hbits
  cases begun with
  | cons first begun =>
      simp only [List.cons_append, List.cons.injEq] at hbits
      obtain ⟨rfl, hbits⟩ := hbits
      rw [List.length_cons] at hshort haligned
      refine ⟨⟨begun, bytes⟩, rfl, Nat.lt_of_succ_lt hshort, ?_, hbits⟩
      rwa [← Nat.add_assoc, Nat.add_right_comm] at haligned
  | nil =>
      cases bytes with
      | nil => simp at hbits
      | cons b bytes =>
          have hbyte : lowBits 8 b.toNat = b.toNat.testBit 0 :: upperBits b := by
            simp only [lowBits, upperBits, Nat.testBit_succ, Nat.div_div_eq_div_mul]
          rw [List.nil_append, bitsOf_cons, hbyte, List.cons_append, List.cons.injEq] at hbits
          obtain ⟨rfl, hbits⟩ := hbits
          refine ⟨⟨upperBits b, bytes⟩, rfl, by simp [upperBits], ?_, hbits⟩
          simp only [List.length_nil, Nat.add_zero] at haligned
          simp only [upperBits, List.length_cons, List.length_nil]
          omega

theorem Holds.number? {count n : Nat} (hn : n < 2 ^ count)
    (hsource : source.Holds position (lowBits count n ++ after)) :
    ∃ rest, source.number? count = some (n, rest) ∧ rest.Holds (position + count) after := by
  induction count generalizing source position n with
  | zero =>
      obtain rfl : n = 0 := by omega
      exact ⟨source, rfl, hsource⟩
  | succ count ih =>
      rw [Nat.pow_succ] at hn
      obtain ⟨middle, hnext, hmiddle⟩ := hsource.next?
      obtain ⟨rest, hhigh, hrest⟩ := ih (n := n / 2) (by omega) hmiddle
      have hn : (n.testBit 0).toNat + 2 * (n / 2) = n := by
        rw [Nat.toNat_testBit]
        omega
      refine ⟨rest, ?_, by rwa [Nat.add_assoc, Nat.add_comm 1] at hrest⟩
      simp only [BitSource.number?, hnext, hhigh, hn]

theorem Holds.wholeBytes {padding : List Bool} {bytes : Bytes} (hshort : padding.length < 8)
    (haligned : (position + padding.length) % 8 = 0)
    (hsource : source.Holds position (padding ++ bitsOf bytes ++ after)) :
    ∃ rest, source.wholeBytes = bytes ++ rest ∧ bitsOf rest = after := by
  obtain ⟨hbegun, hend, hbits⟩ := hsource
  rw [List.append_assoc] at hbits
  obtain ⟨-, hbits⟩ := List.append_inj hbits (by omega)
  exact exists_append_of_bitsOf hbits

end BitSource

end RoutedSession.Gzip
