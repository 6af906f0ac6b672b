import Mathlib.Algebra.BigOperators.Ring.Finset
import RoutedSession.Proofs.Varint

namespace RoutedSession.Varint

/-- How many bytes at the start have another group behind them. -/
def leading (bytes : Bytes) : Nat :=
  (bytes.takeWhile fun b => 128 ≤ b.toNat).length

/-- The sum of the groups up to the one at `last`, each times the value of its place. -/
def placeValue (bytes : Bytes) (last : Nat) : Nat :=
  ∑ place ∈ Finset.range (last + 1), (bytes.getD place 0).toNat % 128 * 128 ^ place

/-- The number at the start of the bytes, as the places of the groups tell it, and the bytes after
it. -/
def decodeByPlaces (bytes : Bytes) : Except Fault (UInt32 × Bytes) :=
  if leading bytes ≤ 4 ∧ leading bytes < bytes.length then
    if placeValue bytes (leading bytes) < 2 ^ 32 then
      .ok ((placeValue bytes (leading bytes)).toUInt32, bytes.drop (leading bytes + 1))
    else .error .overflow
  else if leading bytes = bytes.length ∧ bytes.length ≤ 5 then .error .truncated
  else .error .overflow

section

variable {front rest : Bytes} {last : UInt8}

theorem leading_append (hfront : Continues front)
    (hrest : ∀ b ∈ rest.head?, b.toNat < 128) : leading (front ++ rest) = front.length := by
  have hnone : rest.takeWhile (fun b => 128 ≤ b.toNat) = [] := by
    cases rest with
    | nil => rfl
    | cons b rest =>
        have hb := hrest b rfl
        exact List.takeWhile_cons_of_neg (by simpa using hb)
  have hall : ∀ b ∈ front, decide (128 ≤ b.toNat) = true := by simpa [Continues] using hfront
  rw [leading, List.takeWhile_append_of_pos hall, hnone, List.append_nil]

theorem placeValue_cons (b : UInt8) (bytes : Bytes) (last : Nat) :
    placeValue (b :: bytes) (last + 1) = b.toNat % 128 + 128 * placeValue bytes last := by
  have hplace (place : Nat) : ((b :: bytes).getD (place + 1) 0).toNat % 128 * 128 ^ (place + 1) =
      128 * ((bytes.getD place 0).toNat % 128 * 128 ^ place) := by
    rw [List.getD_cons_succ]
    ring
  rw [placeValue, Finset.sum_range_succ', Finset.sum_congr rfl fun place _ => hplace place,
    ← Finset.mul_sum, Nat.add_comm]
  simp [placeValue]

theorem placeValue_append (front : Bytes) (last : UInt8) (rest : Bytes) :
    placeValue (front ++ last :: rest) front.length = value (front ++ [last]) := by
  induction front with
  | nil => simp [placeValue, value]
  | cons b front ih =>
      rw [List.cons_append, List.length_cons, placeValue_cons, ih, List.cons_append, value]

theorem decode_eq_decodeByPlaces (bytes : Bytes) : decode bytes = decodeByPlaces bytes := by
  obtain ⟨front, rest, rfl, hfront, hrest⟩ := exists_continues bytes
  rw [decodeByPlaces, leading_append hfront hrest]
  rcases rest with _ | ⟨last, rest⟩
  · rw [List.append_nil, if_neg (fun hless => Nat.lt_irrefl _ hless.2)]
    split
    · rename_i hall
      exact (Fails.truncated hfront hall.2).decode_eq
    · rename_i hmany
      have hmost : 5 < (front ++ []).length := by
        rw [List.append_nil]
        omega
      have hfails := fails_of_many hfront (by omega) hmost
      rw [List.append_nil] at hfails
      exact hfails.decode_eq
  · have hlength : (front ++ last :: rest).length = front.length + rest.length + 1 := by
      rw [List.length_append, List.length_cons, Nat.add_assoc]
    have hbehind : (front ++ last :: rest).drop (front.length + 1) = rest := by
      rw [List.drop_append, List.drop_of_length_le (Nat.le_succ _), Nat.add_sub_cancel_left]
      rfl
    split
    · rename_i hfew
      rw [placeValue_append, hbehind]
      exact decode_append_last hfront (hrest last rfl) (by omega) rest
    · rename_i hmany
      rw [if_neg (by omega)]
      exact (fails_of_many hfront (by omega) (by omega)).decode_eq

theorem value_lt (groups : Bytes) : value groups < 128 ^ groups.length := by
  induction groups with
  | nil => exact Nat.zero_lt_one
  | cons b groups ih =>
      have hgroup : b.toNat % 128 < 128 := Nat.mod_lt _ (by decide)
      rw [value, List.length_cons, Nat.pow_succ]
      omega

end

section

variable {n : UInt32}

theorem size_le {count : Nat} (hcount : 0 < count) (hn : n.toNat < 128 ^ count) :
    size n ≤ count := by
  simp only [size, UInt32.lt_iff_toNat_lt, UInt32.reduceToNat]
  obtain hlarge | rfl | rfl | rfl | rfl : 5 ≤ count ∨ count = 1 ∨ count = 2 ∨ count = 3 ∨
      count = 4 := by omega
  all_goals grind

theorem size_pos (n : UInt32) : 0 < size n := by
  unfold size
  grind

theorem lt_pow_size (n : UInt32) : n.toNat < 128 ^ size n := by
  have hn := n.toNat_lt
  simp only [size, UInt32.lt_iff_toNat_lt, UInt32.reduceToNat]
  grind

theorem Spells.toNat_eq {groups : Bytes} (hspells : Spells groups n) :
    n.toNat = value groups := by
  obtain ⟨-, -, -, hfits⟩ := hspells
  rw [Nat.toUInt32_eq, UInt32.toNat_ofNat_of_lt' hfits]

theorem Spells.size_le_length {groups : Bytes} (hspells : Spells groups n) :
    size n ≤ groups.length := by
  have hsome : 0 < groups.length := by
    obtain ⟨-, -, -, -⟩ := hspells
    simp
  apply size_le hsome
  rw [hspells.toNat_eq]
  exact value_lt groups

theorem Spells.shortest {groups : Bytes} (hspells : Spells groups n)
    (hsize : groups.length = size n) : Shortest groups := by
  have hvalue := hspells.toNat_eq
  obtain @⟨front, last, -, hlast, -, -⟩ := hspells
  rw [shortest_append_singleton_iff]
  by_contra hspare
  rw [not_or, not_not] at hspare
  obtain ⟨hfront, rfl⟩ := hspare
  -- A last group that adds nothing can be left out.
  have hless : size (value (front ++ [0])).toUInt32 ≤ front.length := by
    apply size_le (List.length_pos_iff.mpr hfront)
    rw [hvalue, value_append_singleton front hlast]
    simpa using value_lt front
  rw [List.length_append, List.length_singleton] at hsize
  omega

theorem length_encode (n : UInt32) : (encode n).length = size n := by
  obtain ⟨front, last, hgroups, hfront, hlast, hvalue, hshortest⟩ := exists_groups_eq n.toNat
  refine Nat.le_antisymm ?_ (spells_encode n).1.size_le_length
  rw [encode, hgroups, List.length_append, List.length_singleton]
  rcases shortest_append_singleton_iff.mp hshortest with rfl | hneeded
  · exact size_pos n
  · have hpower := Nat.lt_of_le_of_lt (pow_le_value hlast hneeded) (hvalue ▸ lt_pow_size n)
    exact (Nat.pow_lt_pow_iff_right (by decide : 1 < 128)).mp hpower

end

/-- How groups are read off the start of bytes, and how a number is written as groups. -/
structure ByPlaces (bytes : Bytes) (n : UInt32) : Prop where
  /-- What is read is the sum of the groups, up to the first one that has none behind it. -/
  decoded : decode bytes = decodeByPlaces bytes
  length_written : (encode n).length = size n
  read_back : decode (encode n ++ bytes) = .ok (n, bytes)
  /-- What is read as a number takes no fewer bytes than it is written in. If it takes as many, they
  are the same. -/
  shortest : ∀ rest, decode bytes = .ok (n, rest) → ∃ count ≤ bytes.length,
    bytes.drop count = rest ∧ size n ≤ count ∧ (count = size n ↔ bytes.take count = encode n)

/-- Reading takes all of the groups into account, and writing spends none. -/
theorem decode_byPlaces (bytes : Bytes) (n : UInt32) : ByPlaces bytes n := by
  constructor
  case decoded => exact decode_eq_decodeByPlaces bytes
  case length_written => exact length_encode n
  case read_back => exact (spells_encode n).1.decode_eq bytes
  case shortest =>
    intro rest hread
    rcases spells_or_fails bytes with ⟨groups, m, after, rfl, hspells⟩ | ⟨fault, hfails⟩
    · obtain ⟨rfl, rfl⟩ := Prod.mk.inj (Except.ok.inj (hread.symm.trans (hspells.decode_eq after)))
      refine ⟨groups.length, by simp, List.drop_left, hspells.size_le_length, ?_⟩
      rw [List.take_left]
      constructor
      · intro hsize
        exact (encode_eq_iff.mpr ⟨hspells, hspells.shortest hsize⟩).symm
      · intro hencode
        rw [hencode, length_encode]
    · cases hread.symm.trans hfails.decode_eq

end RoutedSession.Varint
