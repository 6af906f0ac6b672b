import Mathlib.Tactic.Ring
import RoutedSession.Proofs.Gzip.Trees

namespace RoutedSession.Gzip.PrefixCode

open CodeTree

/-- The number that the first word of a length writes. -/
def firstWord (lengths : List Nat) : (length : Nat) → Nat
  | 0 | 1 => 0
  | length + 2 => 2 * (firstWord lengths (length + 1) + lengths.count (length + 1))

/-- The word of a symbol. A length of zero means that there is none. -/
def word? (lengths : List Nat) (symbol : Nat) : Option (List Bool) :=
  match lengths[symbol]? with
  | none | some 0 => none
  | some (length + 1) =>
      some (highBits (length + 1)
        (firstWord lengths (length + 1) + (lengths.take symbol).count (length + 1)))

/-- What the words of each length use up, counted in words of the greatest length. -/
def kraft (lengths : List Nat) : Nat :=
  ((List.range' 1 maxLength).map fun length => lengths.count length * 2 ^ (maxLength - length)).sum

variable {lengths : List Nat}

def ofLength (lengths : List Nat) (place length : Nat) : List (Nat × Nat) :=
  (lengths.zipIdx place).filter (·.1 == length)

theorem ordered_eq (lengths : List Nat) :
    ordered lengths = (List.range' 1 maxLength).flatMap (ofLength lengths 0) :=
  rfl

theorem fst_of_mem_ofLength {place length : Nat} {entry : Nat × Nat}
    (hentry : entry ∈ ofLength lengths place length) : entry.1 = length := by
  simpa using (List.mem_filter.mp hentry).2

theorem length_ofLength (lengths : List Nat) (place length : Nat) :
    (ofLength lengths place length).length = lengths.count length := by
  have hmap := List.countP_map (p := (· == length)) (f := Prod.fst) (l := lengths.zipIdx place)
  rw [List.zipIdx_map_fst] at hmap
  rw [ofLength, ← List.countP_eq_length_filter, List.count, hmap]
  rfl

theorem weight_ofLength (lengths : List Nat) (place length : Nat) :
    weight (ofLength lengths place length) = lengths.count length * 2 ^ (maxLength - length) := by
  have hsame : (ofLength lengths place length).map (fun entry => 2 ^ (maxLength - entry.1)) =
      List.replicate (lengths.count length) (2 ^ (maxLength - length)) := by
    rw [List.eq_replicate_iff, List.length_map, length_ofLength]
    refine ⟨rfl, fun part hpart => ?_⟩
    obtain ⟨entry, hentry, rfl⟩ := List.mem_map.mp hpart
    rw [fst_of_mem_ofLength hentry]
  rw [weight, hsame, List.sum_replicate_nat]

theorem weight_flatMap (lengths : List Nat) (order : List Nat) :
    weight (order.flatMap (ofLength lengths 0)) =
      (order.map fun length => lengths.count length * 2 ^ (maxLength - length)).sum := by
  induction order with
  | nil => rfl
  | cons length order ih =>
      rw [List.flatMap_cons, weight_append, weight_ofLength, ih, List.map_cons, List.sum_cons]

theorem weight_ordered (lengths : List Nat) : weight (ordered lengths) = kraft lengths :=
  weight_flatMap lengths _

theorem load_eq_kraft (lengths : List Nat) : load lengths = kraft lengths := by
  have hfold : ∀ (entries : List (Nat × Nat)) (sum : Nat),
      entries.foldl (fun sum entry => sum + Nat.pow 2 (maxLength - entry.1)) sum =
        sum + weight entries := by
    intro entries
    induction entries with
    | nil => intro sum; rfl
    | cons entry entries ih =>
        intro sum
        rw [List.foldl_cons, ih, weight_cons, Nat.pow_eq, Nat.add_assoc]
  rw [load, hfold, weight_ordered, Nat.zero_add]

theorem weight_shorter {length : Nat} (hlength : length < maxLength) :
    weight ((List.range' 1 length).flatMap (ofLength lengths 0)) =
      firstWord lengths (length + 1) * 2 ^ (maxLength - (length + 1)) := by
  induction length with
  | zero => simp [firstWord]
  | succ length ih =>
      have hpow : 2 ^ (maxLength - (length + 1)) = 2 * 2 ^ (maxLength - (length + 2)) := by
        rw [← Nat.pow_succ']
        congr 1
        omega
      rw [List.range'_concat, List.flatMap_append, weight_append, ih (by omega),
        List.flatMap_singleton, weight_ofLength, firstWord, Nat.one_mul, Nat.add_comm 1, hpow]
      ring

theorem sorted_ordered (lengths : List Nat) : Sorted 1 (ordered lengths) where
  pairwise := by
    rw [ordered_eq, List.pairwise_flatMap]
    constructor
    · intro length _
      refine List.pairwise_of_forall_mem_list fun a ha b hb => ?_
      rw [fst_of_mem_ofLength ha, fst_of_mem_ofLength hb]
    · refine List.Pairwise.imp ?_ (List.pairwise_lt_range' (s := 1) (n := maxLength))
      intro length length' hlt a ha b hb
      rw [fst_of_mem_ofLength ha, fst_of_mem_ofLength hb]
      exact Nat.le_of_lt hlt
  bounds := by
    intro entry hentry
    rw [ordered_eq, List.mem_flatMap] at hentry
    obtain ⟨length, hlength, hentry⟩ := hentry
    rw [fst_of_mem_ofLength hentry]
    rw [List.mem_range'_1] at hlength
    omega

theorem exists_ordered {length symbol : Nat} (hsymbol : lengths[symbol]? = some length)
    (hpos : 1 ≤ length) (hmost : length ≤ maxLength) :
    ∃ front back, ordered lengths = front ++ (length, symbol) :: back ∧
      weight front / 2 ^ (maxLength - length) =
        firstWord lengths length + (lengths.take symbol).count length := by
  obtain ⟨short, rfl⟩ : ∃ short, length = short + 1 := ⟨length - 1, by omega⟩
  obtain ⟨hplace, hlength⟩ := List.getElem?_eq_some_iff.mp hsymbol
  -- The symbols are split at this one, and the lengths at its own.
  have hsplit : lengths = lengths.take symbol ++ (short + 1) :: lengths.drop (symbol + 1) := by
    rw [← hlength, ← List.drop_eq_getElem_cons hplace, List.take_append_drop]
  have hown : ofLength lengths 0 (short + 1) =
      ofLength (lengths.take symbol) 0 (short + 1) ++
        (short + 1, symbol) :: ofLength (lengths.drop (symbol + 1)) (symbol + 1) (short + 1) := by
    conv_lhs => rw [hsplit]
    rw [ofLength, List.zipIdx_append, List.filter_append, List.zipIdx_cons, List.length_take,
      Nat.min_eq_left (Nat.le_of_lt hplace), Nat.zero_add, List.filter_cons_of_pos (by simp)]
    rfl
  have hrange : List.range' 1 maxLength =
      List.range' 1 short ++ (short + 1) :: List.range' (short + 2) (maxLength - (short + 1)) := by
    have hlater : List.range' (short + 1) (maxLength - short) =
        (short + 1) :: List.range' (short + 2) (maxLength - (short + 1)) := by
      rw [show maxLength - short = maxLength - (short + 1) + 1 by omega, List.range'_succ]
    rw [← hlater, Nat.add_comm short 1, List.range'_append_1]
    congr 1
    omega
  let back := (List.range' (short + 2) (maxLength - (short + 1))).flatMap (ofLength lengths 0)
  refine ⟨(List.range' 1 short).flatMap (ofLength lengths 0) ++
      ofLength (lengths.take symbol) 0 (short + 1),
    ofLength (lengths.drop (symbol + 1)) (symbol + 1) (short + 1) ++ back, ?_, ?_⟩
  · rw [ordered_eq, hrange, List.flatMap_append, List.flatMap_cons, hown, List.append_assoc,
      List.append_assoc, List.cons_append]
  · rw [weight_append, weight_shorter (by omega), weight_ofLength, ← Nat.add_mul,
      Nat.mul_div_cancel _ (Nat.two_pow_pos _)]

/-- The tree of a code into which all words fit leads to all of them. -/
theorem spans_ofLengths (hfits : kraft lengths ≤ 2 ^ maxLength) :
    Spans (node (ofLengths lengths).zero (ofLengths lengths).one) 0 (ordered lengths) := by
  obtain ⟨taken, htaken, hspans, hfull⟩ :=
    @exists_branches 0 _ _ rfl (sorted_ordered lengths) (exists_grow rfl)
  -- If the tree is full, no word can be left over, for the words fit.
  have hrest : (grow (maxLength - 1) 1 (grow (maxLength - 1) 1 (ordered lengths)).2).2 = [] := by
    rcases hfull with hrest | hfull
    · exact hrest
    · refine eq_nil_of_weight ?_
      rw [← weight_ordered, htaken, weight_append, hfull] at hfits
      rw [Nat.sub_zero] at hfits
      exact Nat.le_zero.mp (Nat.le_of_add_le_add_left hfits)
  have hordered : ordered lengths = taken :=
    htaken.trans ((congrArg (taken ++ ·) hrest).trans (List.append_nil taken))
  rw [hordered]
  exact hspans

theorem decode_word {symbol : Nat} {word : List Bool} (hfits : kraft lengths ≤ 2 ^ maxLength)
    (hmost : ∀ length ∈ lengths, length ≤ maxLength) (hword : word? lengths symbol = some word)
    (position : Nat) : Reads (ofLengths lengths).decode position word symbol := by
  rw [word?] at hword
  split at hword
  · simp at hword
  · simp at hword
  · rename_i length hsymbol
    obtain rfl := Option.some.inj hword
    obtain ⟨front, back, hordered, hcount⟩ := exists_ordered hsymbol (Nat.succ_pos length)
      (hmost _ (List.mem_of_getElem? hsymbol))
    rw [← hcount]
    exact (spans_ofLengths hfits).walk position hordered

end RoutedSession.Gzip.PrefixCode
