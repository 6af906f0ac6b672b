import RoutedSession.Gzip.BitSource

namespace RoutedSession.Gzip

/-- Why compressed data cannot be read. -/
inductive DeflateFault where
  /-- The data ends before its last block does. -/
  | incomplete
  /-- No data that starts like this is valid. -/
  | corrupt
  deriving DecidableEq, Repr

/-- What the bits after some first bits of a code word lead to. -/
inductive CodeTree where
  /-- No word starts like this. -/
  | absent
  /-- The word of a symbol ends here. -/
  | leaf (symbol : Nat)
  /-- The words that go on with a zero, and those that go on with a one. -/
  | node (zero one : CodeTree)
  deriving DecidableEq, Repr

namespace CodeTree

/-- The tree below `depth`, filled from the left with the first symbols of the list, and the symbols
that found no place. The list holds lengths and symbols, shorter lengths first. -/
def grow : (room : Nat) → (depth : Nat) → List (Nat × Nat) → CodeTree × List (Nat × Nat)
  | _, _, [] => (.absent, [])
  | 0, depth, (length, symbol) :: rest =>
      if length = depth then (.leaf symbol, rest) else (.absent, (length, symbol) :: rest)
  | room + 1, depth, (length, symbol) :: rest =>
      if length = depth then (.leaf symbol, rest)
      else
        let (zero, afterZero) := grow room (depth + 1) ((length, symbol) :: rest)
        let (one, afterOne) := grow room (depth + 1) afterZero
        (.node zero one, afterOne)

/-- Follows bits down a tree to a symbol. -/
def walk : CodeTree → BitSource → Except DeflateFault (Nat × BitSource)
  | .absent, _ => .error .corrupt
  | .leaf symbol, source => .ok (symbol, source)
  | .node zero one, source =>
      match source.next? with
      | none => .error .incomplete
      | some (bit, rest) => if bit then one.walk rest else zero.walk rest

theorem left_of_walk {tree : CodeTree} {source rest : BitSource} {symbol : Nat}
    (hfound : tree.walk source = .ok (symbol, rest)) : rest.left ≤ source.left := by
  induction tree generalizing source with
  | absent => simp [walk] at hfound
  | leaf => simp [walk] at hfound; simp [hfound.2]
  | node zero one zeroIH oneIH =>
      simp only [walk] at hfound
      split at hfound
      · simp at hfound
      · rename_i hnext
        have := BitSource.left_of_next? hnext
        split at hfound
        · have := oneIH hfound; omega
        · have := zeroIH hfound; omega

end CodeTree

/-- A code whose words have at least one bit: the words that start with a zero, and those that
start with a one. -/
structure PrefixCode where
  zero : CodeTree
  one : CodeTree
  deriving DecidableEq, Repr

namespace PrefixCode

/-- The longest code word. -/
def maxLength : Nat := 15

/-- The symbols that have a word, with the word's length, shorter ones first. -/
def ordered (lengths : List Nat) : List (Nat × Nat) :=
  (List.range' 1 maxLength).flatMap fun length => lengths.zipIdx.filter (·.1 == length)

/-- The part of all words of the greatest length that the given words use up, counted in words of
that length. -/
def load (lengths : List Nat) : Nat :=
  (ordered lengths).foldl (fun sum entry => sum + Nat.pow 2 (maxLength - entry.1)) 0

/-- Whether every long enough bit sequence starts with exactly one word. -/
def isComplete (lengths : List Nat) : Bool :=
  load lengths == Nat.pow 2 maxLength

/-- Whether the words leave no gap, or there is no word apart from one of a single bit. -/
def isUsable (lengths : List Nat) : Bool :=
  match ordered lengths with
  | [] | [(1, _)] => true
  | _ => isComplete lengths

/-- The code with words of the given lengths. A length of zero means that the symbol has none. -/
def ofLengths (lengths : List Nat) : PrefixCode :=
  let (zero, afterZero) := CodeTree.grow (maxLength - 1) 1 (ordered lengths)
  ⟨zero, (CodeTree.grow (maxLength - 1) 1 afterZero).1⟩

/-- Reads one code word. -/
def decode (code : PrefixCode) (source : BitSource) : Except DeflateFault (Nat × BitSource) :=
  match source.next? with
  | none => .error .incomplete
  | some (bit, rest) => if bit then code.one.walk rest else code.zero.walk rest

theorem left_of_decode {code : PrefixCode} {source rest : BitSource} {symbol : Nat}
    (hfound : code.decode source = .ok (symbol, rest)) : rest.left < source.left := by
  unfold decode at hfound
  split at hfound
  · simp at hfound
  · rename_i hnext
    have := BitSource.left_of_next? hnext
    split at hfound <;> have := CodeTree.left_of_walk hfound <;> omega

end PrefixCode

end RoutedSession.Gzip
