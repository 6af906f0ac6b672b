import RoutedSession.Bytes

/-!
Byte strings that grow at their end. They are kept in the pieces in which they arrived, so that
adding to a long one does not copy it.
-/

namespace RoutedSession

/-- A byte string in pieces. -/
structure Pieces where
  newestFirst : List Bytes
  size : Nat
  size_eq : size = newestFirst.flatten.length
  deriving Repr

namespace Pieces

/-- No bytes. -/
def empty : Pieces :=
  ⟨[], 0, rfl⟩

/-- A byte string in one piece. -/
def ofBytes (bytes : Bytes) : Pieces :=
  ⟨[bytes], bytes.length, by simp⟩

/-- Adds bytes at the end. -/
def append (pieces : Pieces) (bytes : Bytes) : Pieces where
  newestFirst := bytes :: pieces.newestFirst
  size := pieces.size + bytes.length
  size_eq := by
    rw [pieces.size_eq, List.flatten_cons, List.length_append, Nat.add_comm]

/-- The bytes of all pieces in their order. A single piece is not copied. -/
def bytes (pieces : Pieces) : Bytes :=
  match pieces.newestFirst with
  | [piece] => piece
  | newestFirst => newestFirst.reverse.flatten

theorem bytes_eq_flatten (pieces : Pieces) :
    pieces.bytes = pieces.newestFirst.reverse.flatten := by
  unfold bytes
  split <;> simp [*]

@[simp] theorem bytes_empty : empty.bytes = [] :=
  rfl

@[simp] theorem bytes_ofBytes (bytes : Bytes) : (ofBytes bytes).bytes = bytes := by
  rfl

@[simp] theorem bytes_append (pieces : Pieces) (more : Bytes) :
    (pieces.append more).bytes = pieces.bytes ++ more := by
  simp [bytes_eq_flatten, append]

@[simp] theorem length_bytes (pieces : Pieces) : pieces.bytes.length = pieces.size := by
  rw [pieces.size_eq, bytes_eq_flatten]
  simp [List.length_flatten]

/-- The bytes without the first `count`. -/
def drop (count : Nat) (pieces : Pieces) : Pieces where
  newestFirst := [pieces.bytes.drop count]
  size := pieces.size - count
  size_eq := by simp

@[simp] theorem bytes_drop (count : Nat) (pieces : Pieces) :
    (pieces.drop count).bytes = pieces.bytes.drop count :=
  rfl

end Pieces

end RoutedSession
