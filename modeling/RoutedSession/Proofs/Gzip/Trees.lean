import RoutedSession.Gzip.PrefixCode
import RoutedSession.Proofs.Gzip.Bits

namespace RoutedSession.Gzip

/-- The lowest `count` bits of a number, the highest first. -/
def highBits : (count : Nat) → (n : Nat) → List Bool
  | 0, _ => []
  | count + 1, n => n.testBit count :: highBits count n

/-- A reader finds a value in certain bits, whatever comes after them. -/
def Reads {α : Type} (read : BitSource → Except DeflateFault (α × BitSource)) (position : Nat)
    (bits : List Bool) (value : α) : Prop :=
  ∀ ⦃source : BitSource⦄ ⦃after : List Bool⦄, source.Holds position (bits ++ after) →
    ∃ rest, read source = .ok (value, rest) ∧ rest.Holds (position + bits.length) after

theorem highBits_of_lt {count n : Nat} (hn : n < 2 ^ count) :
    highBits (count + 1) n = false :: highBits count n := by
  rw [highBits, Nat.testBit_lt_two_pow hn]

theorem highBits_two_pow_add {count place : Nat} (hcount : count ≤ place) (n : Nat) :
    highBits count (2 ^ place + n) = highBits count n := by
  induction count with
  | zero => rfl
  | succ count ih =>
      rw [highBits, highBits, Nat.testBit_two_pow_add_gt (by omega), ih (by omega)]

theorem highBits_of_upper {count n : Nat} (hn : n < 2 ^ count) :
    highBits (count + 1) (2 ^ count + n) = true :: highBits count n := by
  rw [highBits, Nat.testBit_two_pow_add_eq, Nat.testBit_lt_two_pow hn,
    highBits_two_pow_add (Nat.le_refl count)]
  rfl

namespace CodeTree

/-- What words of the given lengths use up, counted in words of the greatest length. -/
def weight (entries : List (Nat × Nat)) : Nat :=
  (entries.map fun entry => 2 ^ (PrefixCode.maxLength - entry.1)).sum

@[simp] theorem weight_nil : weight [] = 0 :=
  rfl

@[simp] theorem weight_cons (entry : Nat × Nat) (entries : List (Nat × Nat)) :
    weight (entry :: entries) = 2 ^ (PrefixCode.maxLength - entry.1) + weight entries := by
  simp [weight]

@[simp] theorem weight_append (front back : List (Nat × Nat)) :
    weight (front ++ back) = weight front + weight back := by
  simp [weight]

theorem eq_nil_of_weight {entries : List (Nat × Nat)} (hweight : weight entries = 0) :
    entries = [] := by
  cases entries with
  | nil => rfl
  | cons entry entries =>
      have hpos := Nat.two_pow_pos (PrefixCode.maxLength - entry.1)
      rw [weight_cons] at hweight
      omega

/-- Symbols with the lengths of their words, shorter words first, for a tree below `depth`. -/
structure Sorted (depth : Nat) (entries : List (Nat × Nat)) : Prop where
  pairwise : entries.Pairwise fun a b => a.1 ≤ b.1
  bounds : ∀ entry ∈ entries, depth ≤ entry.1 ∧ entry.1 ≤ PrefixCode.maxLength

theorem Sorted.right {depth : Nat} {front back : List (Nat × Nat)}
    (hsorted : Sorted depth (front ++ back)) : Sorted depth back where
  pairwise := (List.pairwise_append.mp hsorted.pairwise).2.1
  bounds entry hentry := hsorted.bounds entry (List.mem_append_right front hentry)

theorem Sorted.deeper {depth length symbol : Nat} {entries : List (Nat × Nat)}
    (hsorted : Sorted depth ((length, symbol) :: entries)) (hlength : length ≠ depth) :
    Sorted (depth + 1) ((length, symbol) :: entries) where
  pairwise := hsorted.pairwise
  bounds := by
    intro entry hentry
    have hentry' := hsorted.bounds entry hentry
    have hfirst := hsorted.bounds _ List.mem_cons_self
    rcases List.mem_cons.mp hentry with rfl | hmem
    · dsimp only at hfirst ⊢
      omega
    · have hle := (List.pairwise_cons.mp hsorted.pairwise).1 entry hmem
      dsimp only at hfirst hle
      omega

/-- A tree below `depth` leads to each of the given symbols under the bits that count the words in
front of it. -/
structure Spans (tree : CodeTree) (depth : Nat) (taken : List (Nat × Nat)) : Prop where
  light : weight taken ≤ 2 ^ (PrefixCode.maxLength - depth)
  walk : ∀ {front back : List (Nat × Nat)} {length symbol : Nat} (position : Nat),
    taken = front ++ (length, symbol) :: back →
      Reads tree.walk position
        (highBits (length - depth) (weight front / 2 ^ (PrefixCode.maxLength - length))) symbol

variable {depth : Nat}

theorem spans_absent : Spans .absent depth [] where
  light := Nat.zero_le _
  walk _ htaken := by simp at htaken

theorem spans_leaf (symbol : Nat) : Spans (.leaf symbol) depth [(depth, symbol)] where
  light := by simp
  walk := by
    intro front back length symbol' position htaken source after hsource
    obtain ⟨rfl, hentry, rfl⟩ : front = [] ∧ (depth, symbol) = (length, symbol') ∧ back = [] := by
      cases front with
      | nil => simpa using htaken
      | cons first front => simp at htaken
    obtain ⟨rfl, rfl⟩ := Prod.mk.inj hentry
    rw [Nat.sub_self] at hsource ⊢
    exact ⟨source, rfl, hsource⟩

theorem reads_node {zero one : CodeTree} {position symbol : Nat} {bit : Bool} {bits : List Bool}
    (hbranch : Reads (if bit then one else zero).walk (position + 1) bits symbol) :
    Reads (node zero one).walk position (bit :: bits) symbol := by
  intro source after hsource
  obtain ⟨middle, hnext, hmiddle⟩ := hsource.next?
  obtain ⟨rest, hread, hrest⟩ := hbranch hmiddle
  refine ⟨rest, ?_, by rwa [List.length_cons, ← Nat.add_assoc, Nat.add_right_comm]⟩
  simp only [walk, hnext]
  cases bit with
  | false | true => exact hread

theorem spans_node {zero one : CodeTree} {left right : List (Nat × Nat)}
    (hdepth : depth < PrefixCode.maxLength) (hzero : Spans zero (depth + 1) left)
    (hone : Spans one (depth + 1) right)
    (hfull : right = [] ∨ weight left = 2 ^ (PrefixCode.maxLength - (depth + 1)))
    (hbounds : ∀ entry ∈ left ++ right, depth + 1 ≤ entry.1 ∧ entry.1 ≤ PrefixCode.maxLength) :
    Spans (node zero one) depth (left ++ right) where
  light := by
    have hleft := hzero.light
    have hright := hone.light
    have hpow : 2 ^ (PrefixCode.maxLength - depth) =
        2 ^ (PrefixCode.maxLength - (depth + 1)) + 2 ^ (PrefixCode.maxLength - (depth + 1)) := by
      rw [← Nat.two_mul, ← Nat.pow_succ']
      congr 1
      omega
    rw [weight_append, hpow]
    omega
  walk := by
    intro front back length symbol position htaken
    obtain ⟨hdeep, hmost⟩ := hbounds (length, symbol) (by simp [htaken])
    dsimp only at hdeep hmost
    have hlength : length - depth = length - (depth + 1) + 1 := by omega
    have hpow : 2 ^ (PrefixCode.maxLength - (depth + 1)) =
        2 ^ (length - (depth + 1)) * 2 ^ (PrefixCode.maxLength - length) := by
      rw [← Nat.pow_add]
      congr 1
      omega
    -- How many words of this length fit below a branch.
    have hfits : ∀ {tree : CodeTree} {ahead behind : List (Nat × Nat)},
        Spans tree (depth + 1) (ahead ++ (length, symbol) :: behind) →
          weight ahead / 2 ^ (PrefixCode.maxLength - length) < 2 ^ (length - (depth + 1)) := by
      intro tree ahead behind hspans
      have hlight := hspans.light
      have hpos := Nat.two_pow_pos (PrefixCode.maxLength - length)
      rw [weight_append, weight_cons, hpow] at hlight
      rw [Nat.div_lt_iff_lt_mul hpos]
      dsimp only at hlight
      omega
    rw [hlength]
    rcases List.append_eq_append_iff.mp htaken with ⟨ahead, rfl, hright⟩ | ⟨behind, hleft, hback⟩
    · have hweight : weight left = 2 ^ (PrefixCode.maxLength - (depth + 1)) :=
        hfull.resolve_left (by simp [hright])
      subst hright
      rw [weight_append, hweight, hpow, Nat.mul_comm, Nat.mul_add_div (Nat.two_pow_pos _),
        highBits_of_upper (hfits hone)]
      exact reads_node (hone.walk _ rfl)
    · cases behind with
      | nil =>
          obtain rfl : left = front := by simpa using hleft
          obtain rfl : right = (length, symbol) :: back := hback.symm
          have hweight : weight left = 2 ^ (PrefixCode.maxLength - (depth + 1)) :=
            hfull.resolve_left (by simp)
          have hupper := @hfits _ [] _ hone
          rw [weight_nil, Nat.zero_div] at hupper
          rw [hweight, hpow, Nat.mul_div_cancel _ (Nat.two_pow_pos _),
            ← Nat.add_zero (2 ^ _), highBits_of_upper hupper]
          have hread := @hone.walk [] _ _ _ (position + 1) rfl
          rw [weight_nil, Nat.zero_div] at hread
          exact reads_node hread
      | cons entry behind =>
          obtain ⟨rfl, rfl⟩ := List.cons.inj hback
          subst hleft
          rw [highBits_of_lt (hfits hzero)]
          exact reads_node (hzero.walk _ rfl)

theorem exists_branches {room : Nat} {list : List (Nat × Nat)}
    (hroom : room + (depth + 1) = PrefixCode.maxLength) (hlist : Sorted (depth + 1) list)
    (hgrow : ∀ {list}, Sorted (depth + 1) list →
      ∃ taken, list = taken ++ (grow room (depth + 1) list).2 ∧
        Spans (grow room (depth + 1) list).1 (depth + 1) taken ∧
        ((grow room (depth + 1) list).2 = [] ∨
          weight taken = 2 ^ (PrefixCode.maxLength - (depth + 1)))) :
    ∃ taken, list = taken ++ (grow room (depth + 1) (grow room (depth + 1) list).2).2 ∧
      Spans (node (grow room (depth + 1) list).1
        (grow room (depth + 1) (grow room (depth + 1) list).2).1) depth taken ∧
      ((grow room (depth + 1) (grow room (depth + 1) list).2).2 = [] ∨
        weight taken = 2 ^ (PrefixCode.maxLength - depth)) := by
  obtain ⟨left, hleft, hzero, hfull⟩ := hgrow hlist
  generalize grow room (depth + 1) list = zero at hleft hzero hfull ⊢
  obtain ⟨zero, afterZero⟩ := zero
  dsimp only at hleft hzero hfull ⊢
  subst hleft
  obtain ⟨right, hright, hone, hfull'⟩ := hgrow hlist.right
  generalize grow room (depth + 1) afterZero = one at hright hone hfull' ⊢
  obtain ⟨one, rest⟩ := one
  dsimp only at hright hone hfull' ⊢
  subst hright
  rw [← List.append_assoc] at hlist
  refine ⟨left ++ right, (List.append_assoc ..).symm, ?_, ?_⟩
  · refine spans_node (by omega) hzero hone ?_ fun entry hentry =>
      hlist.bounds entry (List.mem_append_left rest hentry)
    exact hfull.imp_left fun hempty => (List.append_eq_nil_iff.mp hempty).1
  · rcases hfull with hempty | hleft
    · exact .inl (List.append_eq_nil_iff.mp hempty).2
    · refine hfull'.imp_right fun hright => ?_
      rw [weight_append, hleft, hright, ← Nat.two_mul, ← Nat.pow_succ']
      congr 1
      omega

theorem exists_grow {room : Nat} {list : List (Nat × Nat)}
    (hroom : room + depth = PrefixCode.maxLength) (hlist : Sorted depth list) :
    ∃ taken, list = taken ++ (grow room depth list).2 ∧
      Spans (grow room depth list).1 depth taken ∧
      ((grow room depth list).2 = [] ∨
        weight taken = 2 ^ (PrefixCode.maxLength - depth)) := by
  -- The second branch of a node is grown from what the first one left over.
  induction room generalizing depth list with
  | zero =>
      cases list with
      | nil => exact ⟨[], rfl, spans_absent, .inl rfl⟩
      | cons entry list =>
          obtain ⟨length, symbol⟩ := entry
          obtain ⟨hdeep, hmost⟩ := hlist.bounds _ List.mem_cons_self
          obtain rfl : length = depth := by
            dsimp only at hdeep hmost
            omega
          rw [grow, if_pos rfl]
          exact ⟨[(length, symbol)], rfl, spans_leaf symbol, .inr (by simp)⟩
  | succ room ih =>
      cases list with
      | nil => exact ⟨[], rfl, spans_absent, .inl rfl⟩
      | cons entry list =>
          obtain ⟨length, symbol⟩ := entry
          rw [grow]
          split
          · rename_i hlength
            subst hlength
            exact ⟨[(length, symbol)], rfl, spans_leaf symbol, .inr (by simp)⟩
          · rename_i hlength
            exact exists_branches (by omega) (hlist.deeper hlength) fun hrest => ih (by omega) hrest

end CodeTree

end RoutedSession.Gzip
