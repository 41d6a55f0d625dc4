import PlotSheet.Proofs.Number.Overflow
import PlotSheet.Proofs.Number.Undefined

/-!
# Differences and quotients

A difference is the sum with the negated number, and a quotient is the exact quotient, rounded.
Integers of the width of a mantissa are exact. Values from the least positive number on are not
rounded to zero, and sums, differences and products of which an operand is not finite are not
finite either.

## Main results

* `isRounding_sub`, `isRounding_div`: results are rounded exact results
* `exact_ofInt`: integers are exact
* `IsRounding.pos_of_le`, `IsRounding.le_two_mul_abs`: what is not rounded to zero
* `isFinite_of_isFinite_add`, `isFinite_of_isFinite_sub`, `isFinite_of_isFinite_mul`: the operands
  of finite results
-/

namespace PlotSheet.Binary

open Float.Model Float.Model.UnpackedFloat

/-! ## Differences -/

section Differences

variable {u v : UnpackedFloat} {x y : Float}

theorem canonical_neg (h : Canonical u) : Canonical u.neg := by
  cases h with
  | notANumber => exact .notANumber
  | infinity s => exact .infinity _
  | zero s => exact .zero _
  | finite s h => exact .finite _ h

theorem signed_neg (s : Sign) (a : Rat) : signed (-s) a = -signed s a := by
  cases s with
  | positive => rfl
  | negative => exact (neg_neg a).symm

theorem exact_neg (x : Float) : exact (-x) = -exact x := by
  obtain ⟨u, hu, rfl⟩ := exists_eq_number x
  rw [number_neg hu, exact_number (canonical_neg hu), exact_number hu]
  cases hu with
  | notANumber => exact neg_zero.symm
  | infinity s => exact signed_neg s _
  | zero s => exact neg_zero.symm
  | finite s h => exact signed_neg s _

theorem isFinite_neg (x : Float) : (-x).isFinite = x.isFinite := by
  obtain ⟨u, hu, rfl⟩ := exists_eq_number x
  rw [number_neg hu, isFinite_number (canonical_neg hu), isFinite_number hu]
  cases hu <;> rfl

theorem apply_neg (s : Sign) (i : Int) : (-s).apply i = -s.apply i := by
  cases s with
  | positive => rfl
  | negative => exact (Int.neg_neg i).symm

theorem sub_eq_add_neg_form (u v : UnpackedFloat) :
    UnpackedFloat.sub Format.binary64 u v = UnpackedFloat.add Format.binary64 u v.neg := by
  cases u with
  | notANumber => rfl
  | infinity s => cases v <;> rfl
  | zero s => cases v <;> rfl
  | finite s₁ m₁ e₁ h₁ =>
    cases v with
    | notANumber => rfl
    | infinity s => rfl
    | zero s => rfl
    | finite s₂ m₂ e₂ h₂ =>
      simp only [UnpackedFloat.sub, UnpackedFloat.add, UnpackedFloat.neg, apply_neg]
      rfl

/-- A difference is the sum with the negated number. -/
theorem sub_eq_add_neg_float (x y : Float) : x - y = x + -y := by
  obtain ⟨u, hu, rfl⟩ := exists_eq_number x
  obtain ⟨v, hv, rfl⟩ := exists_eq_number y
  have h : number u - number v = number (UnpackedFloat.sub Format.binary64
    (number u).toModel.unpack (number v).toModel.unpack) := rfl
  rw [h, unpack_number hu, unpack_number hv, number_neg hv, number_add hu (canonical_neg hv),
    sub_eq_add_neg_form]

/-- **Differences are rounded exact differences.** -/
theorem isRounding_sub (hx : x.isFinite = true) (hy : y.isFinite = true) :
    IsRounding (x - y) (exact x - exact y) := by
  have hneg : (-y).isFinite = true := (isFinite_neg y).trans hy
  rw [sub_eq_add_neg_float, sub_eq_add_neg, ← exact_neg]
  exact isRounding_add hx hneg

end Differences

/-! ## Quotients -/

section Quotients

variable {m₁ m₂ : Nat} {e₁ e₂ : Int} {x y : Float}

theorem signed_div_signed (s₁ s₂ : Sign) (a b : Rat) :
    signed s₁ a / signed s₂ b = signed (s₁ / s₂) (a / b) := by
  cases s₁ <;> cases s₂
  · exact neg_div_neg_eq a b
  · exact neg_div b a
  · exact div_neg a
  · rfl

theorem sized_div_finite (s₁ s₂ : Sign) (h₁ : IsCanonical m₁ e₁) (h₂ : IsCanonical m₂ e₂) :
    Sized (UnpackedFloat.div Format.binary64 (.finite s₁ m₁ e₁ h₁.pos) (.finite s₂ m₂ e₂ h₂.pos)) ∧
      Rounds (value (UnpackedFloat.div Format.binary64 (.finite s₁ m₁ e₁ h₁.pos)
        (.finite s₂ m₂ e₂ h₂.pos))) (signed s₁ (m₁ * 2 ^ e₁) / signed s₂ (m₂ * 2 ^ e₂)) := by
  obtain ⟨t, k, hcore, hscaled, hwide⟩ := exists_divCore m₁ m₂ e₁ e₂
  have hstands := standsFor_quotient (m₁ * 2 ^ k) h₂.pos
  rw [← hscaled] at hstands
  have hnonneg : (0 : Rat) ≤ m₁ * 2 ^ e₁ / (m₂ * 2 ^ e₂) := (div_pos h₁.value_pos h₂.value_pos).le
  rw [UnpackedFloat.div]
  simp only [hcore]
  generalize hquotient : m₁ * 2 ^ k / m₂ = quotient at hstands
  have hrounded : ∃ v, IsRounded v (m₁ * 2 ^ e₁ / (m₂ * 2 ^ e₂)) ∧
      value (roundWithAccuracy Format.binary64 (s₁ / s₂) quotient t
        (accuracyOfFraction (m₁ * 2 ^ k % m₂) m₂)) = signed (s₁ / s₂) v ∧
      Sized (roundWithAccuracy Format.binary64 (s₁ / s₂) quotient t
        (accuracyOfFraction (m₁ * 2 ^ k % m₂) m₂)) := by
    rcases hwide with hk | hleast
    · have hlog := le_log2_quotient h₁.pos h₂.pos hk
      rw [hquotient] at hlog
      apply exists_roundWithAccuracy _ _ hstands
      · rw [targetExponent_eq]
        omega
      · rintro rfl
        rw [Nat.log2_zero] at hlog
        omega
    · by_cases hzero : quotient = 0
      · subst hzero
        exact exists_roundWithAccuracy_zero _ hstands hleast
      · apply exists_roundWithAccuracy _ hzero hstands
        rw [targetExponent_eq]
        omega
  obtain ⟨v, hv, hvalue, hsized⟩ := hrounded
  exact ⟨hsized, s₁ / s₂, _, v, signed_div_signed .., hvalue, hnonneg, hv⟩

/-- **Quotients are rounded exact quotients.** -/
theorem isRounding_div (hx : x.isFinite = true) (hy : y.isFinite = true) (hne : exact y ≠ 0) :
    IsRounding (x / y) (exact x / exact y) := by
  rcases finite_cases hy with ⟨s₂, rfl⟩ | ⟨s₂, m₂, e₂, h₂, rfl⟩
  · exact absurd (exact_number (.zero s₂)) hne
  · rcases finite_cases hx with ⟨s₁, rfl⟩ | ⟨s₁, m₁, e₁, h₁, rfl⟩
    · rw [number_div (.zero s₁) (.finite s₂ h₂), exact_number (.zero s₁), value, zero_div]
      exact isRounding_number (.zero _) rounds_zero
    · obtain ⟨hsized, hrounds⟩ := sized_div_finite s₁ s₂ h₁ h₂
      rw [number_div (.finite s₁ h₁) (.finite s₂ h₂), exact_number (.finite s₁ h₁),
        exact_number (.finite s₂ h₂)]
      exact isRounding_number hsized hrounds

/-- A quotient by an infinity is zero. -/
theorem exact_div_of_infinite (hx : x.isFinite = true) (hy : y.isFinite = false)
    (hnan : y.isNaN = false) : (x / y).isFinite = true ∧ exact (x / y) = 0 := by
  obtain ⟨s₂, rfl⟩ := eq_infinity hnan (Bool.eq_false_iff.1 hy)
  rcases finite_cases hx with ⟨s₁, rfl⟩ | ⟨s₁, m₁, e₁, h₁, rfl⟩
  · rw [number_div (.zero s₁) (.infinity s₂)]
    exact ⟨isFinite_number (.zero _), exact_number (.zero _)⟩
  · rw [number_div (.finite s₁ h₁) (.infinity s₂)]
    exact ⟨isFinite_number (.zero _), exact_number (.zero _)⟩

end Quotients

/-! ## Exact results -/

section Exact

variable {v v' y : Rat} {x : Float}

theorem Rounds.unique (h : Rounds v y) (h' : Rounds v' y) : v = v' :=
  le_antisymm (h.mono h' le_rfl) (h'.mono h le_rfl)

/-- A finite number is rounded to itself. -/
theorem rounds_exact (hx : x.isFinite = true) : Rounds (exact x) (exact x) := by
  rcases finite_cases hx with ⟨s, rfl⟩ | ⟨s, m, e, h, rfl⟩
  · rw [exact_number (.zero s)]
    exact rounds_zero
  · rw [exact_number (.finite s h)]
    exact rounds_value s h

theorem isRounding_exact (hx : x.isFinite = true) : IsRounding x (exact x) := by
  obtain ⟨hlo, hhi⟩ := exact_bounds hx
  exact ⟨exact x, rounds_exact hx, (clamp_of_lt hlo hhi).symm, isNaN_of_isFinite hx⟩

/-- A result with the exact value of a finite number has that value. -/
theorem IsRounding.exact_eq {z : Float} (h : IsRounding x (exact z)) (hz : z.isFinite = true) :
    x.isFinite = true ∧ exact x = exact z := by
  have hx : x.isFinite = true := h.isFinite_iff.2 ((isRounding_exact hz).isFinite_iff.1 hz)
  exact ⟨hx, (h.rounds hx).unique (rounds_exact hz)⟩

theorem exact_ofNat {n : Nat} (hlt : n < 2 * fractionSize) :
    (Float.ofNat n).isFinite = true ∧ exact (Float.ofNat n) = n := by
  obtain ⟨hfinite, hexact⟩ := exact_toFloat hlt
  have hrounding := isRounding_ofNat n
  rw [← hexact] at hrounding ⊢
  exact hrounding.exact_eq hfinite

theorem exact_one : exact 1 = 1 :=
  (exact_ofNat (by decide : 1 < 2 * fractionSize)).2.trans Nat.cast_one

/-- **Integers of the width of a mantissa are exact.** -/
theorem exact_ofInt {i : Int} (hlt : i.natAbs < 2 * fractionSize) :
    (Float.ofInt i).isFinite = true ∧ exact (Float.ofInt i) = i := by
  cases i with
  | ofNat n => exact exact_ofNat hlt
  | negSucc n =>
    obtain ⟨hfinite, hexact⟩ := exact_ofNat hlt
    refine ⟨(isFinite_neg _).trans hfinite, (exact_neg _).trans ?_⟩
    rw [Int.cast_negSucc]
    exact congrArg (-·) hexact

end Exact

/-! ## Results that are not zero -/

section Small

variable {w y : Rat} {x : Float}

/-- The least positive number. -/
theorem isCanonical_least : IsCanonical 1 leastExponent := by
  refine ⟨one_pos, ?_, le_rfl, ?_, .inr rfl⟩ <;> decide

/-- The value of a finite number is a multiple of that of the least positive one. -/
theorem exists_exact_eq_mul (hx : x.isFinite = true) :
    ∃ i : Int, exact x = i * 2 ^ leastExponent := by
  rcases finite_cases hx with ⟨s, rfl⟩ | ⟨s, m, e, h, rfl⟩
  · refine ⟨0, ?_⟩
    rw [exact_number (.zero s), Int.cast_zero, zero_mul]
    rfl
  · rw [exact_number (.finite s h), value, ← apply_mul_zpow s m h.least]
    exact ⟨_, rfl⟩

/-- Different finite numbers are at least as far apart as zero and the least positive number. -/
theorem le_exact_sub_exact {x z : Float} (hx : x.isFinite = true) (hz : z.isFinite = true)
    (hlt : exact x < exact z) : 2 ^ leastExponent ≤ exact z - exact x := by
  obtain ⟨i, hi⟩ := exists_exact_eq_mul hx
  obtain ⟨k, hk⟩ := exists_exact_eq_mul hz
  have hpos : (0 : Rat) < 2 ^ leastExponent := by positivity
  rw [hi, hk] at hlt ⊢
  have hstep : i + 1 ≤ k := by
    have := lt_of_mul_lt_mul_right hlt hpos.le
    exact_mod_cast this
  have hcast : (1 : Rat) ≤ k - i := by
    rw [le_sub_iff_add_le']
    exact_mod_cast hstep
  rw [← sub_mul]
  exact le_mul_of_one_le_left hpos.le hcast

/-- The positive numbers are those of positive value. -/
theorem zero_lt_iff_exact_pos (hnan : x.isNaN = false) : 0 < x ↔ 0 < exact x := by
  rw [lt_iff_exact_lt (by decide) hnan, exact_zero]

/-- What is not below the least positive number is not rounded to zero. -/
theorem IsRounded.pos_of_le (h : IsRounded w y) (hle : 2 ^ leastExponent ≤ y) : 0 < w := by
  have hleast := isCanonical_least.isRounded
  rw [Nat.cast_one, one_mul] at hleast
  exact lt_of_lt_of_le (by positivity) (hleast.mono h hle)

theorem clamp_pos (h : 0 < y) : 0 < clamp y :=
  lt_max_of_lt_right (lt_min h overflow_pos)

theorem clamp_neg (h : y < 0) : clamp y < 0 :=
  max_lt (neg_neg_of_pos overflow_pos) (min_lt_of_left_lt h)

theorem IsRounding.exact_ne_zero (h : IsRounding x y) (hle : 2 ^ leastExponent ≤ |y|) :
    exact x ≠ 0 := by
  obtain ⟨v, ⟨s, y, w, rfl, rfl, hy, hw⟩, hx, -⟩ := h
  rw [abs_signed s hy] at hle
  have hpos := hw.pos_of_le hle
  rw [hx]
  cases s with
  | positive => exact (clamp_pos hpos).ne'
  | negative => exact (clamp_neg (neg_neg_of_pos hpos)).ne

theorem IsRounding.pos_of_le (h : IsRounding x y) (hle : 2 ^ leastExponent ≤ y) : 0 < exact x := by
  have hy : 0 < y := lt_of_lt_of_le (by positivity) hle
  have hne := h.exact_ne_zero (by rwa [abs_of_pos hy])
  obtain ⟨v, hv, hx, -⟩ := h
  have hmono := clamp_mono (rounds_zero.mono hv hy.le)
  rw [clamp_of_lt (by linarith [overflow_pos]) overflow_pos, ← hx] at hmono
  exact lt_of_le_of_ne hmono hne.symm

/-- A magnitude that is not rounded to zero is at most twice the rounded one. -/
theorem IsRounded.le_two_mul (h : IsRounded w y) (hw : w ≠ 0) : y ≤ 2 * w := by
  obtain ⟨t, r, -, hr, rfl⟩ := h
  have hpos : (0 : Rat) < 2 ^ t := by positivity
  have hone : (1 : Rat) ≤ r := by
    have hr0 : r ≠ 0 := by
      rintro rfl
      exact hw (by rw [Nat.cast_zero, zero_mul])
    exact_mod_cast Nat.one_le_iff_ne_zero.2 hr0
  have hupper := hr.upper
  rw [← mul_assoc, ← div_le_iff₀ hpos]
  linarith

theorem IsRounding.le_two_mul_abs (h : IsRounding x y) (hx : x.isFinite = true)
    (hne : exact x ≠ 0) : |y| ≤ 2 * |exact x| := by
  obtain ⟨s, y, w, rfl, hw, hy, hrounded⟩ := h.rounds hx
  rw [hw] at hne ⊢
  rw [abs_signed s hy, abs_signed s hrounded.nonneg]
  apply hrounded.le_two_mul
  rintro rfl
  exact hne (signed_zero s)

/-- A value mirrored in the finite number that it is rounded to is below the threshold. -/
theorem IsRounding.two_mul_abs_sub_lt (h : IsRounding x y) (hx : x.isFinite = true) :
    2 * |exact x| - |y| < threshold := by
  have hlt := (isFinite_iff_abs_exact_lt h.isNaN_eq_false).1 hx
  obtain ⟨s, y, w, rfl, hw, hy, hrounded⟩ := h.rounds hx
  rw [hw, abs_signed s hrounded.nonneg] at hlt ⊢
  rw [abs_signed s hy]
  exact hrounded.two_mul_sub_lt hlt

end Small

/-! ## The operands of finite results -/

section Operands

variable {x y : Float}

/-- The operands of a finite sum are finite. -/
theorem isFinite_of_isFinite_add (h : (x + y).isFinite = true) :
    x.isFinite = true ∧ y.isFinite = true := by
  obtain ⟨u, hu, rfl⟩ := exists_eq_number x
  obtain ⟨v, hv, rfl⟩ := exists_eq_number y
  have hsum (w : UnpackedFloat) (hw : Canonical w)
      (heq : UnpackedFloat.add Format.binary64 u v = w) : w.isFinite = true := by
    rw [← isFinite_number hw, ← heq, ← number_add hu hv]
    exact h
  rw [isFinite_number hu, isFinite_number hv]
  cases hu with
  | notANumber => cases hsum _ .notANumber rfl
  | infinity s =>
    cases hv with
    | notANumber => cases hsum _ .notANumber rfl
    | infinity t =>
      cases s <;> cases t
      · cases hsum _ (.infinity _) rfl
      · cases hsum _ .notANumber rfl
      · cases hsum _ .notANumber rfl
      · cases hsum _ (.infinity _) rfl
    | zero t => cases hsum _ (.infinity s) rfl
    | finite t h => cases hsum _ (.infinity s) rfl
  | zero s =>
    cases hv with
    | notANumber => cases hsum _ .notANumber rfl
    | infinity t => cases hsum _ (.infinity t) rfl
    | zero t => exact ⟨rfl, rfl⟩
    | finite t h => exact ⟨rfl, rfl⟩
  | finite s h =>
    cases hv with
    | notANumber => cases hsum _ .notANumber rfl
    | infinity t => cases hsum _ (.infinity t) rfl
    | zero t => exact ⟨rfl, rfl⟩
    | finite t h' => exact ⟨rfl, rfl⟩

theorem isFinite_of_isFinite_sub (h : (x - y).isFinite = true) :
    x.isFinite = true ∧ y.isFinite = true := by
  rw [sub_eq_add_neg_float] at h
  rw [← isFinite_neg y]
  exact isFinite_of_isFinite_add h

/-- The factors of a finite product are finite, as no number is zero times an infinity. -/
theorem isFinite_of_isFinite_mul (h : (x * y).isFinite = true) :
    x.isFinite = true ∧ y.isFinite = true := by
  obtain ⟨u, hu, rfl⟩ := exists_eq_number x
  obtain ⟨v, hv, rfl⟩ := exists_eq_number y
  have hproduct (w : UnpackedFloat) (hw : Canonical w)
      (heq : UnpackedFloat.mul Format.binary64 u v = w) : w.isFinite = true := by
    rw [← isFinite_number hw, ← heq, ← number_mul hu hv]
    exact h
  rw [isFinite_number hu, isFinite_number hv]
  cases hu with
  | notANumber => cases hproduct _ .notANumber rfl
  | infinity s =>
    cases hv with
    | notANumber => cases hproduct _ .notANumber rfl
    | infinity t => cases hproduct _ (.infinity (s * t)) rfl
    | zero t => cases hproduct _ .notANumber rfl
    | finite t h => cases hproduct _ (.infinity (s * t)) rfl
  | zero s =>
    cases hv with
    | notANumber => cases hproduct _ .notANumber rfl
    | infinity t => cases hproduct _ .notANumber rfl
    | zero t => exact ⟨rfl, rfl⟩
    | finite t h => exact ⟨rfl, rfl⟩
  | finite s h =>
    cases hv with
    | notANumber => cases hproduct _ .notANumber rfl
    | infinity t => cases hproduct _ (.infinity (s * t)) rfl
    | zero t => exact ⟨rfl, rfl⟩
    | finite t h' => exact ⟨rfl, rfl⟩

end Operands

end PlotSheet.Binary
