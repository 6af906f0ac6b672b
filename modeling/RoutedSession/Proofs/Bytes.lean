import Mathlib.Data.List.Induction
import Mathlib.Tactic.Ring
import RoutedSession.Bytes

namespace RoutedSession.Bytes

theorem foldl_ofNatBE (width n front : Nat) :
    (ofNatBE width n).foldl (fun n b => 256 * n + b.toNat) front =
      front * 256 ^ width + n % 256 ^ width := by
  induction width generalizing front with
  | zero => simp [ofNatBE, Nat.mod_one]
  | succ width ih =>
      have hdigit : (n / 256 ^ width).toUInt8.toNat = n / 256 ^ width % 256 := by simp
      rw [ofNatBE, List.foldl_cons, ih, Nat.mod_pow_succ, Nat.pow_eq, hdigit]
      ring

@[simp] theorem toNatBE_ofNatBE (width n : Nat) : toNatBE (ofNatBE width n) = n % 256 ^ width := by
  rw [toNatBE, foldl_ofNatBE, Nat.zero_mul, Nat.zero_add]

theorem ofNatBE_succ (width n : Nat) :
    ofNatBE (width + 1) n = ofNatBE width (n / 256) ++ [n.toUInt8] := by
  induction width with
  | zero => simp [ofNatBE]
  | succ width ih =>
      rw [ofNatBE, ih, ofNatBE, List.cons_append, Nat.div_div_eq_div_mul, Nat.pow_eq, Nat.pow_eq,
        Nat.pow_succ']

theorem ofNatBE_toNatBE (bytes : Bytes) : ofNatBE bytes.length (toNatBE bytes) = bytes := by
  induction bytes using List.reverseRecOn with
  | nil => rfl
  | append_singleton bytes b ih =>
      have hread : toNatBE (bytes ++ [b]) = 256 * toNatBE bytes + b.toNat := by
        rw [toNatBE, List.foldl_append]
        rfl
      have hfront : (256 * toNatBE bytes + b.toNat) / 256 = toNatBE bytes := by
        have hdigit := b.toNat_lt
        omega
      have hlast : (256 * toNatBE bytes + b.toNat).toUInt8 = b := by
        refine UInt8.toNat_inj.mp ?_
        have hdigit := b.toNat_lt
        simp only [UInt8.toNat_ofNat']
        omega
      rw [hread, List.length_append, List.length_singleton, ofNatBE_succ, hfront, hlast, ih]

theorem toNatBE_lt (bytes : Bytes) : toNatBE bytes < 256 ^ bytes.length := by
  have hread := toNatBE_ofNatBE bytes.length (toNatBE bytes)
  rw [ofNatBE_toNatBE] at hread
  rw [hread]
  exact Nat.mod_lt _ (Nat.pow_pos (by decide))

@[simp] theorem toNatLE_ofNatLE (width n : Nat) : toNatLE (ofNatLE width n) = n % 256 ^ width := by
  induction width generalizing n with
  | zero => simp [ofNatLE, toNatLE, Nat.mod_one]
  | succ width ih =>
      have hdigit : n.toUInt8.toNat = n % 256 := by simp
      rw [ofNatLE, toNatLE, ih, hdigit, Nat.pow_succ', Nat.mod_mul]

end RoutedSession.Bytes
