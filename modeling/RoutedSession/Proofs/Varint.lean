import Mathlib.Tactic.Ring
import RoutedSession.Varint

namespace RoutedSession.Varint

theorem toNat_toUInt8 {n : Nat} (hn : n < 256) : n.toUInt8.toNat = n := by
  simp [Nat.mod_eq_of_lt hn]

/-- Reading the groups of `n` adds `n` to what the groups before them make up. There are at most
five groups as long as the sum fits 32 bits. -/
theorem decodeFrom_groups {index value n : Nat} (rest : Bytes) (hindex : index < maxGroups)
    (hfits : value + n * 128 ^ index < 2 ^ 32) :
    decodeFrom index value (groups n ++ rest) =
      .ok ((value + n * 128 ^ index).toUInt32, rest) := by
  induction n using Nat.strongRecOn generalizing index value with
  | ind n ih =>
      have hnotLast : index ≠ maxGroups := Nat.ne_of_lt hindex
      rw [groups]
      split
      · rename_i hsmall
        have hbyte := toNat_toUInt8 (Nat.lt_trans hsmall (by decide : 128 < 256))
        simp only [List.cons_append, List.nil_append, decodeFrom, hnotLast, if_false, hbyte,
          Nat.pow_eq, hsmall, if_true, Nat.mod_eq_of_lt hsmall, hfits]
      · rename_i hlarge
        have hbyte := toNat_toUInt8 (by omega : n % 128 + 128 < 256)
        have hsum : value + n % 128 * 128 ^ index + n / 128 * 128 ^ (index + 1) =
            value + n * 128 ^ index := by
          calc
            _ = value + (n % 128 + 128 * (n / 128)) * 128 ^ index := by ring
            _ = value + n * 128 ^ index := by rw [Nat.mod_add_div]
        have hnext : index + 1 < maxGroups := by
          refine Nat.lt_of_not_le fun hlast => ?_
          have hpower : 128 ^ 5 ≤ 128 ^ (index + 1) := Nat.pow_le_pow_right (by decide) hlast
          have hone : 1 ≤ n / 128 := by omega
          have := Nat.mul_le_mul hone hpower
          omega
        have hmod : (n % 128 + 128) % 128 = n % 128 := by omega
        have hcontinues : ¬ n % 128 + 128 < 128 := by omega
        simp only [List.cons_append, decodeFrom, hnotLast, if_false, hbyte, hmod, hcontinues,
          Nat.pow_eq]
        rw [ih (n / 128) (by omega) hnext (by omega), hsum]

theorem decode_encode_append (n : UInt32) (rest : Bytes) :
    decode (encode n ++ rest) = .ok (n, rest) := by
  have hfits : 0 + n.toNat * 128 ^ 0 < 2 ^ 32 := by
    simpa using n.toNat_lt
  rw [decode, encode, decodeFrom_groups rest (by decide) hfits]
  simp

/-- The number that groups make up, the lowest group first. -/
def value : Bytes → Nat
  | [] => 0
  | b :: rest => b.toNat % 128 + 128 * value rest

/-- Behind each of the groups another one follows. -/
def Continues (front : Bytes) : Prop :=
  ∀ b ∈ front, 128 ≤ b.toNat

/-- Groups that are a number: the last one says so, there are at most five, and they make up a
number below `2 ^ 32`. Groups that add nothing are allowed. -/
inductive Spells : Bytes → UInt32 → Prop where
  | groups {front : Bytes} {last : UInt8} (hfront : Continues front) (hlast : last.toNat < 128)
      (hcount : front.length + 1 ≤ 5) (hfits : value (front ++ [last]) < 2 ^ 32) :
      Spells (front ++ [last]) (value (front ++ [last])).toUInt32

/-- Why bytes do not start with a number. -/
inductive Fails : Bytes → Fault → Prop where
  | truncated {bytes : Bytes} (hbytes : Continues bytes) (hcount : bytes.length ≤ 5) :
      Fails bytes .truncated
  | tooMany {front : Bytes} {next : UInt8} {rest : Bytes} (hfront : Continues front)
      (hcount : front.length = 5) : Fails (front ++ next :: rest) .overflow
  | tooLarge {front : Bytes} {last : UInt8} {rest : Bytes} (hfront : Continues front)
      (hlast : last.toNat < 128) (hcount : front.length + 1 ≤ 5)
      (hlarge : 2 ^ 32 ≤ value (front ++ [last])) : Fails (front ++ last :: rest) .overflow

theorem value_append_singleton (front : Bytes) {last : UInt8} (hlast : last.toNat < 128) :
    value (front ++ [last]) = value front + last.toNat * 128 ^ front.length := by
  induction front with
  | nil => simp [value, Nat.mod_eq_of_lt hlast]
  | cons b front ih =>
      rw [List.cons_append, value, value, ih, List.length_cons]
      ring

theorem decodeFrom_append {front : Bytes} (hfront : Continues front) {index : Nat}
    (hcount : index + front.length ≤ maxGroups) (before : Nat) (rest : Bytes) :
    decodeFrom index before (front ++ rest) =
      decodeFrom (index + front.length) (before + value front * 128 ^ index) rest := by
  induction front generalizing index before with
  | nil => simp [value]
  | cons b front ih =>
      rw [Continues, List.forall_mem_cons] at hfront
      rw [List.length_cons] at hcount
      have hnotLast : index ≠ maxGroups := by omega
      have hcontinues : ¬ b.toNat < 128 := Nat.not_lt.mpr hfront.1
      have hsum : before + b.toNat % 128 * 128 ^ index + value front * 128 ^ (index + 1) =
          before + value (b :: front) * 128 ^ index := by
        rw [value]
        ring
      rw [List.cons_append, decodeFrom, if_neg hnotLast, if_neg hcontinues, Nat.pow_eq,
        ih hfront.2 (by omega), hsum, List.length_cons, Nat.add_assoc, Nat.add_comm 1]

theorem decode_append {front : Bytes} (hfront : Continues front) (hcount : front.length ≤ 5)
    (rest : Bytes) : decode (front ++ rest) = decodeFrom front.length (value front) rest := by
  have hshort : 0 + front.length ≤ maxGroups := by rwa [Nat.zero_add]
  rw [decode, decodeFrom_append hfront hshort]
  simp

theorem decode_append_last {front : Bytes} {last : UInt8} (hfront : Continues front)
    (hlast : last.toNat < 128) (hcount : front.length + 1 ≤ 5) (rest : Bytes) :
    decode (front ++ last :: rest) =
      if value (front ++ [last]) < 2 ^ 32 then
        .ok ((value (front ++ [last])).toUInt32, rest)
      else .error .overflow := by
  have hnotLast : front.length ≠ maxGroups := Nat.ne_of_lt hcount
  rw [decode_append hfront (Nat.le_of_succ_le hcount), decodeFrom, if_neg hnotLast,
    if_pos hlast, Nat.mod_eq_of_lt hlast, Nat.pow_eq, value_append_singleton front hlast]
  rfl

theorem Spells.decode_eq {groups : Bytes} {n : UInt32} (hspells : Spells groups n)
    (rest : Bytes) : decode (groups ++ rest) = .ok (n, rest) := by
  cases hspells with
  | groups hfront hlast hcount hfits =>
      rw [List.append_assoc, List.singleton_append, decode_append_last hfront hlast hcount,
        if_pos hfits]

theorem Fails.decode_eq {bytes : Bytes} {fault : Fault} (hfails : Fails bytes fault) :
    decode bytes = .error fault := by
  cases hfails with
  | truncated hbytes hcount =>
      have hall := decode_append hbytes hcount []
      rwa [List.append_nil, decodeFrom] at hall
  | @tooMany front next rest hfront hcount =>
      have hmost : front.length = maxGroups := hcount
      rw [decode_append hfront (Nat.le_of_eq hcount), decodeFrom, if_pos hmost]
  | tooLarge hfront hlast hcount hlarge =>
      rw [decode_append_last hfront hlast hcount, if_neg (Nat.not_lt.mpr hlarge)]

theorem exists_continues (bytes : Bytes) :
    ∃ front rest, bytes = front ++ rest ∧ Continues front ∧
      ∀ last ∈ rest.head?, last.toNat < 128 := by
  induction bytes with
  | nil => exact ⟨[], [], rfl, nofun, nofun⟩
  | cons b bytes ih =>
      by_cases hlast : b.toNat < 128
      · exact ⟨[], b :: bytes, rfl, nofun, by simpa using hlast⟩
      · obtain ⟨front, rest, rfl, hfront, hrest⟩ := ih
        exact ⟨b :: front, rest, rfl, List.forall_mem_cons.mpr ⟨Nat.not_lt.mp hlast, hfront⟩, hrest⟩

theorem fails_of_many {front rest : Bytes} (hfront : Continues front) (hcount : 5 ≤ front.length)
    (hmore : 5 < (front ++ rest).length) : Fails (front ++ rest) .overflow := by
  obtain ⟨next, later, hlater⟩ := List.exists_cons_of_length_pos
    (l := (front ++ rest).drop 5) (by rw [List.length_drop]; omega)
  have hsplit : front ++ rest = front.take 5 ++ next :: later := by
    rw [← hlater, ← List.take_append_of_le_length hcount, List.take_append_drop]
  have htaken : Continues (front.take 5) := fun b hmem => hfront b (List.mem_of_mem_take hmem)
  exact hsplit ▸ .tooMany htaken (List.length_take_of_le hcount)

theorem spells_or_fails (bytes : Bytes) :
    (∃ groups n rest, bytes = groups ++ rest ∧ Spells groups n) ∨ ∃ fault, Fails bytes fault := by
  obtain ⟨front, rest, rfl, hfront, hrest⟩ := exists_continues bytes
  by_cases hmany : 5 < (front ++ rest).length ∧ 5 ≤ front.length
  · exact .inr ⟨.overflow, fails_of_many hfront hmany.2 hmany.1⟩
  · rw [List.length_append] at hmany
    cases rest with
    | nil =>
        rw [List.append_nil]
        rw [List.length_nil] at hmany
        exact .inr ⟨.truncated, .truncated hfront (by omega)⟩
    | cons last rest =>
        have hlast : last.toNat < 128 := hrest last rfl
        have hcount : front.length + 1 ≤ 5 := by
          rw [List.length_cons] at hmany
          omega
        by_cases hfits : value (front ++ [last]) < 2 ^ 32
        · exact .inl ⟨front ++ [last], _, rest, by simp, .groups hfront hlast hcount hfits⟩
        · exact .inr ⟨.overflow, .tooLarge hfront hlast hcount (Nat.not_lt.mp hfits)⟩

theorem Spells.fails_take {groups : Bytes} {id : UInt32} (hgroups : Spells groups id) {count : Nat}
    (hcount : count < groups.length) : Fails (groups.take count) .truncated := by
  cases hgroups with
  | @groups front last hfront hlast hmost hfits =>
      rw [List.length_append, List.length_singleton] at hcount
      rw [List.take_append_of_le_length (Nat.le_of_lt_succ hcount)]
      refine .truncated (fun b hmem => hfront b (List.mem_of_mem_take hmem)) ?_
      exact Nat.le_trans (List.length_take_le' count front) (Nat.le_of_succ_le hmost)

/-- Each group is needed: the last one adds something, unless it is the only one. -/
def Shortest (groups : Bytes) : Prop :=
  groups.length = 1 ∨ groups.getLast? ≠ some 0

theorem shortest_append_singleton_iff {front : Bytes} {last : UInt8} :
    Shortest (front ++ [last]) ↔ front = [] ∨ last ≠ 0 := by
  simp [Shortest]

theorem pow_le_value {front : Bytes} {last : UInt8} (hlast : last.toNat < 128)
    (hneeded : last ≠ 0) : 128 ^ front.length ≤ value (front ++ [last]) := by
  have hpositive : 0 < last.toNat :=
    Nat.pos_of_ne_zero fun hzero => hneeded (UInt8.toNat_inj.mp hzero)
  rw [value_append_singleton front hlast]
  exact Nat.le_add_left_of_le (Nat.le_mul_of_pos_left _ hpositive)

theorem groups_value {front : Bytes} {last : UInt8} (hfront : Continues front)
    (hlast : last.toNat < 128) (hshortest : Shortest (front ++ [last])) :
    groups (value (front ++ [last])) = front ++ [last] := by
  rw [shortest_append_singleton_iff] at hshortest
  induction front with
  | nil =>
      have hvalue : value ([] ++ [last]) = last.toNat := by
        simp [value, Nat.mod_eq_of_lt hlast]
      rw [hvalue, groups, if_pos hlast]
      simp
  | cons b front ih =>
      rw [Continues, List.forall_mem_cons] at hfront
      have hneeded := hshortest.resolve_left (List.cons_ne_nil b front)
      have hrest : 1 ≤ value (front ++ [last]) :=
        Nat.le_trans (Nat.pow_pos (by decide)) (pow_le_value hlast hneeded)
      have hbyte := b.toNat_lt
      have hlarge : ¬ b.toNat % 128 + 128 * value (front ++ [last]) < 128 := by omega
      have hfirst : (b.toNat % 128 + 128 * value (front ++ [last])) % 128 + 128 = b.toNat := by
        omega
      have hothers : (b.toNat % 128 + 128 * value (front ++ [last])) / 128 =
          value (front ++ [last]) := by omega
      rw [List.cons_append, value, groups, if_neg hlarge, hfirst, hothers,
        ih hfront.2 (.inr hneeded)]
      simp

theorem exists_groups_eq (n : Nat) :
    ∃ front last, groups n = front ++ [last] ∧ Continues front ∧ last.toNat < 128 ∧
      value (front ++ [last]) = n ∧ Shortest (front ++ [last]) := by
  induction n using Nat.strongRecOn with
  | ind n ih =>
      rw [groups]
      split
      · rename_i hsmall
        have hbyte := toNat_toUInt8 (Nat.lt_trans hsmall (by decide : 128 < 256))
        refine ⟨[], n.toUInt8, rfl, nofun, ?_, ?_, .inl rfl⟩
        · rwa [hbyte]
        · simp [value, hbyte, Nat.mod_eq_of_lt hsmall]
      · rename_i hlarge
        obtain ⟨front, last, hgroups, hfront, hlast, hvalue, hshortest⟩ :=
          ih (n / 128) (by omega)
        have hbyte := toNat_toUInt8 (by omega : n % 128 + 128 < 256)
        refine ⟨(n % 128 + 128).toUInt8 :: front, last, ?_, ?_, hlast, ?_, ?_⟩
        · rw [hgroups, List.cons_append]
        · rw [Continues, List.forall_mem_cons, hbyte]
          exact ⟨Nat.le_add_left 128 _, hfront⟩
        · rw [List.cons_append, value, hvalue, hbyte]
          omega
        · rw [shortest_append_singleton_iff] at hshortest ⊢
          refine .inr fun hzero => ?_
          -- Without anything in front a last group of zero would be no group at all.
          obtain rfl := hshortest.resolve_right (not_not.mpr hzero)
          rw [hzero] at hvalue
          have : n / 128 = 0 := hvalue.symm
          omega

theorem spells_encode (id : UInt32) : Spells (encode id) id ∧ Shortest (encode id) := by
  obtain ⟨front, last, hgroups, hfront, hlast, hvalue, hshortest⟩ := exists_groups_eq id.toNat
  have hfits : value (front ++ [last]) < 2 ^ 32 := by
    rw [hvalue]
    exact id.toNat_lt
  have hcount : front.length + 1 ≤ 5 := by
    rcases shortest_append_singleton_iff.mp hshortest with rfl | hneeded
    · decide
    · have hpower := Nat.lt_of_le_of_lt (pow_le_value hlast hneeded) hfits
      exact (Nat.pow_lt_pow_iff_right (by decide : 1 < 128)).mp
        (Nat.lt_trans hpower (by decide : 2 ^ 32 < 128 ^ 5))
  have hspells := Spells.groups hfront hlast hcount hfits
  have hid : id.toNat.toUInt32 = id := UInt32.ofNat_toNat
  rw [hvalue, ← hgroups, hid] at hspells
  rw [← hgroups] at hshortest
  exact ⟨hspells, hshortest⟩

theorem encode_eq_iff {groups : Bytes} {id : UInt32} :
    encode id = groups ↔ Spells groups id ∧ Shortest groups := by
  constructor
  · rintro rfl
    exact spells_encode id
  · rintro ⟨⟨hfront, hlast, hcount, hfits⟩, hshortest⟩
    rw [encode, Nat.toUInt32_eq, UInt32.toNat_ofNat_of_lt' hfits,
      groups_value hfront hlast hshortest]

end RoutedSession.Varint
