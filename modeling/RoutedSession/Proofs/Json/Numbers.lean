import Mathlib.Tactic.Ring
import RoutedSession.Json.Parse
import RoutedSession.Proofs.Json.Sequences

namespace RoutedSession.Json

theorem printNat_of_lt {n : Nat} (hn : n < 10) : printNat n = [(0x30 + n).toUInt8] := by
  have hall : ∀ n < 10, (Nat.digitChar n).toNat.toUInt8 = (0x30 + n).toUInt8 := by decide
  rw [printNat, Nat.toDigits_of_lt_base hn, List.map_singleton, hall n hn]

theorem printNat_of_le {n : Nat} (hn : 10 ≤ n) :
    printNat n = printNat (n / 10) ++ printNat (n % 10) := by
  have hlast : n % 10 < 10 := Nat.mod_lt n (by decide)
  rw [printNat, Nat.toDigits_of_base_le (by decide) hn, List.map_append, printNat, printNat,
    Nat.toDigits_of_lt_base hlast]

/-- The digit that a byte writes. -/
def digitValue (b : UInt8) : Nat :=
  b.toNat - Mark.zero.toNat

/-- What is true of the digits of a number. -/
structure Decimal (n : Nat) (bytes : Bytes) : Prop where
  digits : ∀ b ∈ bytes, Read.isDigit b = true
  value : (bytes.map digitValue).foldl (fun n d => 10 * n + d) 0 = n
  first : ∃ b rest, bytes = b :: rest ∧ (b = Mark.zero → n = 0 ∧ rest = [])

theorem decimal_printNat (n : Nat) : Decimal n (printNat n) := by
  have hdigit : ∀ n < 10, Read.isDigit (0x30 + n).toUInt8 = true ∧
      digitValue (0x30 + n).toUInt8 = n ∧ ((0x30 + n).toUInt8 = Mark.zero → n = 0) := by decide
  induction n using Nat.strongRecOn with
  | ind n ih =>
      rcases Nat.lt_or_ge n 10 with hn | hn
      · obtain ⟨hbyte, hvalue, hzero⟩ := hdigit n hn
        rw [printNat_of_lt hn]
        constructor
        case digits => simpa using hbyte
        case value => simpa using hvalue
        case first => exact ⟨_, _, rfl, fun hb => ⟨hzero hb, rfl⟩⟩
      · have hlast : n % 10 < 10 := Nat.mod_lt n (by decide)
        obtain ⟨hdigits, hvalue, b, rest, hbytes, hfirst⟩ := ih (n / 10) (by omega)
        obtain ⟨hbyte, hlastValue, -⟩ := hdigit (n % 10) hlast
        rw [printNat_of_le hn, printNat_of_lt hlast]
        constructor
        case digits =>
          rw [List.forall_mem_append]
          exact ⟨hdigits, by simpa using hbyte⟩
        case value =>
          rw [List.map_append, List.foldl_append, hvalue, List.map_singleton, hlastValue]
          exact Nat.div_add_mod n 10
        case first =>
          refine ⟨b, rest ++ [(0x30 + n % 10).toUInt8], by rw [hbytes, List.cons_append], ?_⟩
          intro hb
          have hzero := (hfirst hb).1
          omega

namespace Read

variable {n : Nat} {bytes after : Bytes}

/-- What follows does not begin with a digit. -/
def EndsDigits (after : Bytes) : Prop :=
  ∀ b ∈ after.head?, isDigit b = false

theorem Ends.endsDigits (hafter : Ends after) : EndsDigits after :=
  fun b hb => (hafter b hb).1

theorem digitRun_append (hdigits : ∀ b ∈ bytes, isDigit b = true) (hafter : EndsDigits after) :
    (digitRun (bytes ++ after)).1 = bytes.map digitValue ∧
      (digitRun (bytes ++ after)).2.val = after := by
  have hnone : after.takeWhile isDigit = [] ∧ after.dropWhile isDigit = after := by
    cases after with
    | nil => exact ⟨rfl, rfl⟩
    | cons b after =>
        have hb := hafter b rfl
        exact ⟨List.takeWhile_cons_of_neg (by simp [hb]), List.dropWhile_cons_of_neg (by simp [hb])⟩
  simp only [digitRun]
  rw [List.takeWhile_append_of_pos hdigits, List.dropWhile_append_of_pos hdigits, hnone.1, hnone.2,
    List.append_nil]
  exact ⟨rfl, rfl⟩

theorem finds_wholeDigits (hdigits : ∀ b ∈ bytes, isDigit b = true) (hsome : bytes ≠ [])
    (hzero : bytes.head? = some Mark.zero → bytes = [Mark.zero]) (hafter : EndsDigits after) :
    Finds wholeDigits (bytes ++ after) (bytes.map digitValue) after := by
  obtain ⟨b, rest, rfl⟩ := List.exists_cons_of_ne_nil hsome
  rw [List.forall_mem_cons] at hdigits
  by_cases hb : b = Mark.zero
  · subst hb
    obtain rfl : rest = [] := (List.cons.inj (hzero rfl)).2
    have hnone : after.head?.any isDigit = false := by
      cases hhead : after.head? with
      | none => rfl
      | some b => exact hafter b hhead
    show Finds wholeDigits (Mark.zero :: after) [0] after
    refine ⟨.tail after, ?_, rfl⟩
    rw [wholeDigits, if_pos rfl, hnone]
    rfl
  · obtain ⟨hrun, hleft⟩ := digitRun_append hdigits.2 hafter
    have hshort := Nat.lt_succ_of_le (digitRun (rest ++ after)).2.property
    show Finds wholeDigits (b :: (rest ++ after)) _ after
    refine ⟨⟨(digitRun (rest ++ after)).2.val, hshort⟩, ?_, hleft⟩
    rw [wholeDigits, if_neg hb, if_pos hdigits.1]
    simp only [hrun]
    rfl

theorem places_of_ends (hafter : Ends after) : places after = .ok (none, .all after) := by
  cases after with
  | nil => rfl
  | cons b after => rw [places, if_neg (hafter b rfl).2.1]

theorem power_of_ends (hafter : Ends after) : power after = .ok (none, .all after) := by
  cases after with
  | nil => rfl
  | cons b after =>
      obtain ⟨-, -, hsmall, hcapital⟩ := hafter b rfl
      rw [power, if_neg (not_or.mpr ⟨hsmall, hcapital⟩)]

theorem finds_numeral (hdecimal : Decimal n bytes) (hafter : Ends after) :
    Finds numeral (bytes ++ after) ⟨bytes.map digitValue, none, none⟩ after := by
  obtain ⟨b, tail, hbytes, hfirst⟩ := hdecimal.first
  have hzero : bytes.head? = some Mark.zero → bytes = [Mark.zero] := by
    intro hhead
    obtain rfl : b = Mark.zero := by simpa [hbytes] using hhead
    rw [hbytes, (hfirst rfl).2]
  obtain ⟨rest, hwhole, hrest⟩ :=
    finds_wholeDigits hdecimal.digits (by simp [hbytes]) hzero hafter.endsDigits
  rw [← hrest] at hafter
  refine ⟨⟨rest.val, rest.property⟩, ?_, hrest⟩
  simp only [numeral, hwhole, places_of_ends hafter, bind, Except.bind, Left.all]
  rw [power_of_ends hafter]
  rfl

end Read

theorem le_foldl (digits : List Nat) (n : Nat) : n ≤ digits.foldl (fun n d => 10 * n + d) n := by
  induction digits generalizing n with
  | nil => exact Nat.le_refl n
  | cons d digits ih => exact Nat.le_trans (by omega) (ih (10 * n + d))

theorem absorb_of_lt {digits : List Nat} {n : Nat}
    (hfits : digits.foldl (fun n d => 10 * n + d) n < Nat.pow 2 64) :
    Numeral.absorb n digits = (digits.foldl (fun n d => 10 * n + d) n, 0) := by
  induction digits generalizing n with
  | nil => rfl
  | cons d digits ih =>
      have hfirst := Nat.lt_of_le_of_lt (le_foldl digits (10 * n + d)) hfits
      rw [Numeral.absorb, if_pos hfirst, List.foldl_cons]
      exact ih hfits

/-- An integer that fits 64 bits, with or without a sign. -/
def FitsWord (value : Int) : Prop :=
  -2 ^ 63 ≤ value ∧ value < 2 ^ 64

instance (value : Int) : Decidable (FitsWord value) :=
  inferInstanceAs (Decidable (_ ∧ _))

theorem value_of_decimal {n : Nat} {bytes : Bytes} (hdecimal : Decimal n bytes)
    (hfits : n < Nat.pow 2 64) :
    Numeral.value ⟨bytes.map digitValue, none, none⟩ false = .ok (.int n) ∧
      (n ≠ 0 → n ≤ Nat.pow 2 63 →
        Numeral.value ⟨bytes.map digitValue, none, none⟩ true = .ok (.int (-(n : Int)))) := by
  have habsorb : Numeral.absorb 0 (bytes.map digitValue) = (n, 0) := by
    rw [absorb_of_lt (by rw [hdecimal.value]; exact hfits), hdecimal.value]
  constructor
  · simp only [Numeral.value, habsorb]
    rfl
  · intro hzero hhalf
    simp only [Numeral.value, habsorb, Bool.not_true, Bool.false_eq_true, if_false]
    rw [if_pos ⟨hzero, hhalf⟩]

theorem exists_number {value : Int} (hfits : FitsWord value) :
    ∃ b tail, printNumber (.int value) = b :: tail ∧ Read.startsNumber b = true ∧
      ∀ after, Read.Ends after → ∃ rest : Read.Rest (b :: (tail ++ after)),
        Read.number b (tail ++ after) = .ok (.int value, rest) ∧ rest.val = after := by
  obtain ⟨hlow, hhigh⟩ := hfits
  have hdecimal := decimal_printNat value.natAbs
  have hword : value.natAbs < Nat.pow 2 64 := by
    simp only [Nat.pow_eq]
    omega
  obtain ⟨hplus, hminus⟩ := value_of_decimal hdecimal hword
  rw [printNumber]
  rcases Int.lt_or_le value 0 with hneg | hneg
  · rw [if_pos hneg]
    refine ⟨Mark.minus, _, rfl, by decide, fun after hafter => ?_⟩
    obtain ⟨rest, hread, hrest⟩ := Read.finds_numeral hdecimal hafter
    have hhalf : value.natAbs ≤ Nat.pow 2 63 := by
      simp only [Nat.pow_eq]
      omega
    have hvalue := hminus (by omega) hhalf
    rw [show -(value.natAbs : Int) = value by omega] at hvalue
    have hshort := Nat.lt_succ_of_lt rest.property
    refine ⟨⟨rest.val, hshort⟩, ?_, hrest⟩
    simp only [Read.number, hread, hvalue, bind, Except.bind, if_true]
    rfl
  · rw [if_neg (Int.not_lt.mpr hneg)]
    obtain ⟨b, tail, hbytes, hfirst⟩ := hdecimal.first
    have hdigit := hdecimal.digits b (by rw [hbytes]; exact List.mem_cons_self)
    refine ⟨b, tail, hbytes, by rw [Read.startsNumber, hdigit, Bool.or_true], ?_⟩
    intro after hafter
    have hnumeral := Read.finds_numeral hdecimal hafter
    rw [hbytes] at hplus
    rw [hbytes, List.cons_append] at hnumeral
    obtain ⟨rest, hread, hrest⟩ := hnumeral
    rw [show (value.natAbs : Int) = value by omega] at hplus
    have hsign : b ≠ Mark.minus := by
      rintro rfl
      exact absurd hdigit (by decide)
    refine ⟨rest, ?_, hrest⟩
    simp only [Read.number, hread, hplus, bind, Except.bind, if_neg hsign]
    rfl

end RoutedSession.Json
