import Mathlib.Data.Rat.Floor
import PlotSheet.Number.Scalar
import PlotSheet.Proofs.Number.Order

/-!
# Rounding to integers

The nearest integer of a floating-point number is read off its bits. It is the nearest integer of
its exact value, kept within bounds, where an infinity lies past both bounds.

## Main results

* `nearestInt_mem`: rounding does not cross an integer
* `nearestInt_mul_zpow`: the nearest integer of a natural number times a power of two
* `nearestWithin_eq`, `nearestWithin_of_isNaN`: the nearest integer of a number is that of its exact
  value, and zero without one
-/

namespace PlotSheet

open Binary Float.Model Float.Model.UnpackedFloat

/-! ## Rational numbers -/

theorem nearestInt_of_nonneg {x : Rat} (h : 0 ≤ x) : nearestInt x = (x + 1 / 2).floor :=
  if_neg (not_lt.2 h)

theorem floor_half : (1 / 2 : Rat).floor = 0 := by
  norm_num [Rat.floor_def]

theorem nearestInt_zero : nearestInt 0 = 0 := by
  rw [nearestInt_of_nonneg le_rfl, zero_add, floor_half]

/-- A half is rounded away from zero on both of its sides. -/
theorem nearestInt_neg (x : Rat) : nearestInt (-x) = -nearestInt x := by
  rcases lt_trichotomy x 0 with hx | rfl | hx
  · have hsum : -(x - 1 / 2) = -x + 1 / 2 := by ring
    rw [nearestInt_of_nonneg (by linarith), nearestInt, if_pos hx, Rat.ceil_eq_neg_floor_neg,
      Int.neg_neg, hsum]
  · rw [neg_zero, nearestInt_zero, neg_zero]
  · have hsum : -(-x - 1 / 2) = x + 1 / 2 := by ring
    rw [nearestInt_of_nonneg hx.le, nearestInt, if_pos (by linarith), Rat.ceil_eq_neg_floor_neg,
      hsum]

/-- No integer lies between a number and its nearest integer. -/
theorem le_nearestInt {n : Int} {x : Rat} (hx : 0 ≤ x) (h : (n : Rat) ≤ x) : n ≤ nearestInt x := by
  rw [nearestInt_of_nonneg hx, Rat.le_floor_iff]
  linarith

theorem nearestInt_le {n : Int} {x : Rat} (hx : 0 ≤ x) (h : x ≤ n) : nearestInt x ≤ n := by
  rw [nearestInt_of_nonneg hx]
  by_contra hlt
  have hfloor : ((n + 1 : Int) : Rat) ≤ x + 1 / 2 := Rat.le_floor_iff.1 (not_le.1 hlt)
  push_cast at hfloor
  linarith

/-- Rounding does not cross an integer. -/
theorem nearestInt_mem {lo hi : Int} {x : Rat} (hlo : (lo : Rat) ≤ x) (hhi : x ≤ hi) :
    lo ≤ nearestInt x ∧ nearestInt x ≤ hi := by
  rcases le_total 0 x with hx | hx
  · exact ⟨le_nearestInt hx hlo, nearestInt_le hx hhi⟩
  · have hlo' : -x ≤ ((-lo : Int) : Rat) := by push_cast; linarith
    have hhi' : ((-hi : Int) : Rat) ≤ -x := by push_cast; linarith
    have hle := nearestInt_le (neg_nonneg.2 hx) hlo'
    have hge := le_nearestInt (neg_nonneg.2 hx) hhi'
    rw [nearestInt_neg] at hle hge
    omega

theorem nearestInt_mul_zpow (m : Nat) (e : Int) :
    nearestInt (m * 2 ^ e) = nearestMagnitude m e := by
  have hnonneg : (0 : Rat) ≤ m * 2 ^ e := by positivity
  rw [nearestInt_of_nonneg hnonneg, nearestMagnitude]
  split
  · next he =>
    obtain ⟨k, rfl⟩ := Int.eq_ofNat_of_zero_le he
    have hsum : (m * 2 ^ (k : Int) + 1 / 2 : Rat) = 1 / 2 + ((m * 2 ^ k : Nat) : Int) := by
      rw [zpow_natCast]
      push_cast
      ring
    rw [hsum, Rat.floor_add_intCast, floor_half, zero_add]
    rfl
  · next he =>
    obtain ⟨k, hk⟩ := Int.eq_ofNat_of_zero_le (a := -e) (by omega)
    obtain rfl : e = -(k : Int) := by omega
    have hsum : (m * 2 ^ (-(k : Int)) + 1 / 2 : Rat) =
        ((2 * m + 2 ^ k : Nat) : Rat) / ((2 * 2 ^ k : Nat) : Rat) := by
      rw [zpow_neg, zpow_natCast]
      push_cast
      field_simp
    have hexponent : (- -(k : Int)).toNat = k := by simp
    rw [hsum, hexponent]
    exact Rat.floor_natCast_div_natCast (2 * m + 2 ^ k) (2 * 2 ^ k)

/-! ## Floating-point numbers -/

theorem nearest_eq (s : Sign) (m : Nat) (e : Int) :
    Binary.nearest ⟨isNegative s, m, e⟩ = nearestInt (signed s (m * 2 ^ e)) := by
  cases s with
  | positive => exact (nearestInt_mul_zpow m e).symm
  | negative =>
    rw [signed, nearestInt_neg, nearestInt_mul_zpow]
    rfl

/-- The nearest integer of a number within bounds is that of its exact value. -/
theorem nearestWithin_eq {lo hi : Int} {x : Float} (hx : x.isNaN = false)
    (hlo : -overflow ≤ lo) (hhi : (hi : Rat) ≤ overflow) (horder : lo ≤ hi) :
    nearestWithin lo hi x = max lo (min hi (nearestInt (exact x))) := by
  obtain ⟨u, hu, rfl⟩ := exists_eq_number x
  rw [exact_number hu, nearestWithin]
  cases hu with
  | notANumber => exact absurd rfl ((isNaN_number_eq_false_iff .notANumber).1 hx)
  | infinity s =>
    rw [ofFloat?_number_infinity, hx, signBit_number_infinity]
    have hoverflow := overflow_pos.le
    cases s with
    | positive =>
      have hpast := le_nearestInt hoverflow hhi
      change hi = max lo (min hi (nearestInt overflow))
      omega
    | negative =>
      have hpast : -lo ≤ nearestInt overflow := le_nearestInt hoverflow (by push_cast; linarith)
      change lo = max lo (min hi (nearestInt (-overflow)))
      rw [nearestInt_neg]
      omega
  | zero s =>
    have hvalue : signed s ((0 : Nat) * 2 ^ leastExponent) = 0 := by cases s <;> simp [signed]
    rw [ofFloat?_number_zero]
    dsimp only
    rw [nearest_eq, hvalue]
    rfl
  | finite s h =>
    rw [(ofFloat?_number_finite s h).1]
    dsimp only
    rw [nearest_eq]
    rfl

theorem nearestWithin_of_isNaN (lo hi : Int) {x : Float} (hx : x.isNaN = true) :
    nearestWithin lo hi x = 0 := by
  obtain ⟨u, hu, rfl⟩ := exists_eq_number x
  have hnone : ofFloat? (number u) = none := by
    by_cases hnumber : u = .notANumber
    · subst hnumber
      decide
    · rw [(isNaN_number_eq_false_iff hu).2 hnumber] at hx
      cases hx
  rw [nearestWithin, hnone]
  exact if_pos hx

end PlotSheet
