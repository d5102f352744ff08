import Mathlib.Data.Rat.Floor
import Mathlib.Algebra.Order.Field.Power
import Mathlib.Tactic.Linarith

/-!
# Binary floating-point numbers

The numbers of 64 bits that are neither negative nor subnormal, as the rational numbers they are. The result of an
operation is rounded to the nearest, and of two to the even one.
-/

namespace LiveStreaming.Library.Binary64

def powTwo (e : ℤ) : ℚ := if 0 ≤ e then 2 ^ e.toNat else 1 / 2 ^ (-e).toNat

/-- The largest power of two that is not above a positive number. -/
def exponent (q : ℚ) : ℤ :=
  let e : ℤ := (Nat.log2 q.num.toNat : ℤ) - Nat.log2 q.den
  if q < powTwo e then e - 1 else e

def significand (q : ℚ) : ℕ :=
  let m := q / powTwo (exponent q - 52)
  let rest := m - m.floor
  if rest < 1 / 2 ∨ (rest = 1 / 2 ∧ m.floor % 2 = 0) then m.floor.toNat else m.floor.toNat + 1

def nearest (q : ℚ) : ℚ := if q = 0 then 0 else significand q * powTwo (exponent q - 52)

/-- The bits of a number, of which the first of the significand is not stored. -/
def bits (q : ℚ) : ℕ := if q = 0 then 0 else (exponent q + 1023).toNat <<< 52 + (significand q - 2 ^ 52)

theorem powTwo_eq_zpow (e : ℤ) : powTwo e = 2 ^ e := by
  unfold powTwo
  split
  · next positive =>
    rw [← zpow_natCast, Int.toNat_of_nonneg positive]
  · next negative =>
    rw [one_div, ← zpow_natCast, Int.toNat_of_nonneg (by omega), zpow_neg, inv_inv]

theorem exponent_natCast {n : ℕ} (some : n ≠ 0) : exponent n = Nat.log2 n := by
  have below : ¬ (n : ℚ) < powTwo (Nat.log2 n) := by
    rw [powTwo_eq_zpow, zpow_natCast, not_lt]
    exact_mod_cast Nat.log2_self_le some
  have one : Nat.log2 1 = 0 := by decide
  simp [exponent, one, below]

theorem nearest_natCast {n : ℕ} (few : n < 2 ^ 53) : nearest n = n := by
  by_cases none : n = 0
  · subst none
    rfl
  · have bits : Nat.log2 n < 53 := (Nat.log2_lt none).mpr few
    have whole : (n : ℚ) / powTwo (exponent n - 52) = ((n * 2 ^ (52 - Nat.log2 n) : ℕ) : ℚ) := by
      have exponents : -((Nat.log2 n : ℤ) - 52) = ((52 - Nat.log2 n : ℕ) : ℤ) := by omega
      rw [exponent_natCast none, powTwo_eq_zpow, div_eq_mul_inv, ← zpow_neg, exponents, zpow_natCast]
      norm_cast
    have same : (significand n : ℚ) = n / powTwo (exponent n - 52) := by
      unfold significand
      rw [whole]
      generalize n * 2 ^ (52 - Nat.log2 n) = m
      have floored : Rat.floor (m : ℚ) = m := Rat.floor_intCast m
      simp [floored]
    have positive : powTwo (exponent n - 52) ≠ 0 := by
      rw [powTwo_eq_zpow]
      positivity
    rw [nearest, if_neg (by exact_mod_cast none), same, div_mul_cancel₀ _ positive]

theorem powTwo_place {n : ℕ} (many : 2 ^ 53 ≤ n) : powTwo (exponent n - 52) = 2 ^ (Nat.log2 n - 52) := by
  have some : n ≠ 0 := by omega
  have bits : 53 ≤ Nat.log2 n := (Nat.le_log2 some).mpr many
  have place : exponent n - 52 = ((Nat.log2 n - 52 : ℕ) : ℤ) := by
    rw [exponent_natCast some]
    omega
  rw [powTwo_eq_zpow, place, zpow_natCast]

/-- A whole number is rounded to a whole number. -/
theorem nearest_natCast_whole (n : ℕ) : ∃ k : ℕ, nearest n = k := by
  by_cases few : n < 2 ^ 53
  · exact ⟨n, nearest_natCast few⟩
  · have some : n ≠ 0 := by omega
    refine ⟨significand n * 2 ^ (Nat.log2 n - 52), ?_⟩
    rw [nearest, if_neg (by exact_mod_cast some), powTwo_place (Nat.not_lt.mp few)]
    push_cast
    rfl

theorem le_nearest_natCast {n : ℕ} (many : 2 ^ 53 ≤ n) : 2 ^ 53 ≤ nearest n := by
  have some : n ≠ 0 := by omega
  have bits : 53 ≤ Nat.log2 n := (Nat.le_log2 some).mpr many
  have power := powTwo_place many
  have first : (2 : ℚ) ^ 52 ≤ n / powTwo (exponent n - 52) := by
    have split : (2 : ℕ) ^ 52 * 2 ^ (Nat.log2 n - 52) ≤ n := by
      rw [← pow_add, Nat.add_sub_cancel' (by omega)]
      exact Nat.log2_self_le some
    rw [power, le_div_iff₀ (by positivity)]
    exact_mod_cast split
  have floored : (2 ^ 52 : ℤ) ≤ ((n : ℚ) / powTwo (exponent n - 52)).floor :=
    Rat.le_floor_iff.mpr (by exact_mod_cast first)
  have large : 2 ^ 52 ≤ significand n := by
    unfold significand
    dsimp only
    split <;> omega
  have two : (2 : ℚ) ≤ powTwo (exponent n - 52) := by
    rw [power]
    calc (2 : ℚ) = 2 ^ 1 := (pow_one 2).symm
      _ ≤ 2 ^ (Nat.log2 n - 52) := pow_le_pow_right₀ one_le_two (by omega)
  rw [nearest, if_neg (by exact_mod_cast some)]
  calc (2 : ℚ) ^ 53 = 2 ^ 52 * 2 := pow_succ 2 52
    _ ≤ significand n * powTwo (exponent n - 52) :=
      mul_le_mul (by exact_mod_cast large) two (by norm_num) (by positivity)

theorem nearest_natCast_inj {m n : ℕ} (few : m < 2 ^ 53) (same : nearest m = nearest n) : m = n := by
  rw [nearest_natCast few] at same
  by_cases small : n < 2 ^ 53
  · rw [nearest_natCast small] at same
    exact_mod_cast same
  · have large := le_nearest_natCast (Nat.not_lt.mp small)
    rw [← same] at large
    exact absurd few (Nat.not_lt.mpr (by exact_mod_cast large))

end LiveStreaming.Library.Binary64
