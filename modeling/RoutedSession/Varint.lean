import RoutedSession.Bytes

/-!
Variable-length numbers below `2 ^ 32`: groups of seven bits, the lowest group first, with the
high bit of a byte set when another group follows.
-/

namespace RoutedSession.Varint

/-- Why the start of a byte string is no number. -/
inductive Fault where
  /-- The bytes end inside the number. -/
  | truncated
  /-- The number has more than five groups, or does not fit 32 bits. -/
  | overflow
  deriving DecidableEq, Repr

/-- The most groups a number may take. -/
def maxGroups : Nat := 5

/-- The groups of `n`, with no group beyond the highest one that is needed. -/
def groups (n : Nat) : Bytes :=
  if n < 128 then [n.toUInt8] else (n % 128 + 128).toUInt8 :: groups (n / 128)
termination_by n
decreasing_by omega

/-- The written form of a number. -/
def encode (n : UInt32) : Bytes :=
  groups n.toNat

/-- How many bytes the written form of a number takes. -/
def size (n : UInt32) : Nat :=
  if n < 0x80 then 1
  else if n < 0x4000 then 2
  else if n < 0x200000 then 3
  else if n < 0x10000000 then 4
  else 5

/-- Continues to read a number of which the groups before `index` add up to `value`. -/
def decodeFrom (index value : Nat) : Bytes → Except Fault (UInt32 × Bytes)
  | [] => .error .truncated
  | b :: rest =>
      if index = maxGroups then .error .overflow
      else
        let total := value + b.toNat % 128 * Nat.pow 128 index
        if b.toNat < 128 then
          if total < Nat.pow 2 32 then .ok (total.toUInt32, rest) else .error .overflow
        else decodeFrom (index + 1) total rest

/-- The number at the start of the bytes, and the bytes after it. -/
def decode (bytes : Bytes) : Except Fault (UInt32 × Bytes) :=
  decodeFrom 0 0 bytes

end RoutedSession.Varint
