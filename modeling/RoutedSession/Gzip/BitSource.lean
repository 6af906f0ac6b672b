import RoutedSession.Bytes

namespace RoutedSession.Gzip

/-- Bits still to be read: those of a byte that was begun, then whole bytes. -/
structure BitSource where
  begun : List Bool
  bytes : Bytes
  deriving DecidableEq, Repr

namespace BitSource

def ofBytes (bytes : Bytes) : BitSource :=
  ⟨[], bytes⟩

/-- The bits of a byte above the lowest, lowest first. -/
def upperBits (b : UInt8) : List Bool :=
  [b.toNat.testBit 1, b.toNat.testBit 2, b.toNat.testBit 3, b.toNat.testBit 4,
    b.toNat.testBit 5, b.toNat.testBit 6, b.toNat.testBit 7]

def left (source : BitSource) : Nat :=
  source.begun.length + 8 * source.bytes.length

def next? : BitSource → Option (Bool × BitSource)
  | ⟨bit :: begun, bytes⟩ => some (bit, ⟨begun, bytes⟩)
  | ⟨[], b :: bytes⟩ => some (b.toNat.testBit 0, ⟨upperBits b, bytes⟩)
  | ⟨[], []⟩ => none

theorem left_of_next? {source rest : BitSource} {bit : Bool}
    (hread : source.next? = some (bit, rest)) : source.left = rest.left + 1 := by
  unfold next? at hread
  split at hread <;> simp at hread <;> obtain ⟨_, rfl⟩ := hread <;>
    simp [left, upperBits] <;> omega

def number? : (count : Nat) → BitSource → Option (Nat × BitSource)
  | 0, source => some (0, source)
  | count + 1, source =>
      match source.next? with
      | none => none
      | some (bit, rest) =>
          match number? count rest with
          | none => none
          | some (high, rest) => some (bit.toNat + 2 * high, rest)

theorem left_of_number? {count n : Nat} {source rest : BitSource}
    (hread : source.number? count = some (n, rest)) : source.left = rest.left + count := by
  induction count generalizing source n rest with
  | zero => simp [number?] at hread; simp [hread.2]
  | succ count ih =>
      simp only [number?] at hread
      split at hread
      · simp at hread
      · rename_i hnext
        split at hread
        · simp at hread
        · rename_i hmore
          simp only [Option.some.injEq, Prod.mk.injEq] at hread
          have := left_of_next? hnext
          have := ih hmore
          rw [← hread.2]
          omega

/-- The whole bytes that are left. What remains of a byte that was begun is dropped. -/
def wholeBytes (source : BitSource) : Bytes :=
  source.bytes

end BitSource

end RoutedSession.Gzip
