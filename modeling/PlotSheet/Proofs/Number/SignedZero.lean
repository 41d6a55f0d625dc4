import PlotSheet.Proofs.Number.Quotient

/-!
# Zeros in sums and products

Zero times a finite number is a zero, and zero times anything else is undefined. A zero of either
sign adds nothing to a number other than the negative zero, and a sum is that number only if both
summands are.

## Main results

* `exists_mul_eq_zero`, `isNaN_zero_mul`: products with zero
* `add_zero_of_ne`: sums with zero
* `add_ne_negative_zero`: a sum that starts from anything but the negative zero never gets there
* `eq_of_isNaN`: there is one undefined number
-/

namespace PlotSheet.Binary

open Float.Model Float.Model.UnpackedFloat

variable {x y : Float}

/-! ## Undefined numbers -/

/-- All undefined numbers are one. -/
theorem eq_of_isNaN (hx : x.isNaN = true) (hy : y.isNaN = true) : x = y := by
  have hform {z : Float} (hz : z.isNaN = true) : z = number .notANumber := by
    obtain ⟨u, hu, rfl⟩ := exists_eq_number z
    rw [isNaN_number hu] at hz
    cases hu with
    | notANumber => rfl
    | infinity s => cases hz
    | zero s => cases hz
    | finite s h => cases hz
  rw [hform hx, hform hy]

/-! ## Products -/

/-- Zero times a finite number is a zero. -/
theorem exists_mul_eq_zero (hx : (x == 0) = true) (hy : y.isFinite = true) :
    ∃ s, x * y = number (.zero s) := by
  obtain ⟨u, hu, rfl⟩ := exists_eq_number x
  obtain ⟨s, rfl⟩ := (beq_zero_iff hu).1 hx
  rcases finite_cases hy with ⟨t, rfl⟩ | ⟨t, m, e, h, rfl⟩
  · exact ⟨s * t, number_mul (.zero s) (.zero t)⟩
  · exact ⟨s * t, number_mul (.zero s) (.finite t h)⟩

/-- Zero times an infinity, or an undefined number, is undefined. -/
theorem isNaN_zero_mul (hx : (x == 0) = true) (hy : ¬ y.isFinite = true) :
    (x * y).isNaN = true := by
  rw [isNaN_mul_iff]
  cases hnan : y.isNaN with
  | true => exact .inl (.inr rfl)
  | false =>
    obtain ⟨s, rfl⟩ := eq_infinity hnan hy
    exact .inr (.inl ⟨hx, isInf_number (.infinity s)⟩)

/-! ## Sums -/

/-- A zero adds nothing to a number other than the negative zero. -/
theorem add_zero_of_ne (hx : x ≠ number (.zero .negative)) (s : Sign) :
    x + number (.zero s) = x := by
  obtain ⟨u, hu, rfl⟩ := exists_eq_number x
  rw [number_add hu (.zero s)]
  cases hu with
  | notANumber => rfl
  | infinity t => rfl
  | finite t h => rfl
  | zero t =>
    cases t with
    | negative => exact absurd rfl hx
    | positive => cases s <;> rfl

/-- Canonical forms of one number are equal. -/
theorem number_injective {u v : UnpackedFloat} (hu : Canonical u) (hv : Canonical v)
    (h : number u = number v) : u = v := by
  rw [← unpack_number hu, ← unpack_number hv, h]

/-- Opposite mantissas cancel to the positive zero, and all others to no zero at all. -/
theorem number_normalize_ne (i : Int) {e : Int} (hleast : leastExponent ≤ e) :
    number (UnpackedFloat.normalize Format.binary64 i e .positive) ≠ number (.zero .negative) := by
  intro h
  by_cases hi : i = 0
  · subst hi
    cases number_injective (.zero .positive) (.zero .negative) h
  · -- a sum of mantissas is a multiple of the least positive number
    obtain ⟨hrounds, hsized⟩ := rounds_normalize i e
    have hone : (1 : Rat) ≤ |(i : Rat)| := by exact_mod_cast Int.one_le_abs hi
    have hpos : (0 : Rat) < 2 ^ e := by positivity
    have hsize : (2 : Rat) ^ leastExponent ≤ |(i : Rat) * 2 ^ e| := by
      rw [abs_mul, abs_of_pos hpos]
      calc (2 : Rat) ^ leastExponent ≤ 2 ^ e := zpow_le_zpow_right₀ one_le_two hleast
        _ ≤ |(i : Rat)| * 2 ^ e := le_mul_of_one_le_left hpos.le hone
    apply (isRounding_number hsized hrounds).exact_ne_zero hsize
    rw [h]
    exact exact_number (.zero .negative)

/-- A sum is the negative zero only if both summands are. -/
theorem add_ne_negative_zero (hx : x ≠ number (.zero .negative)) :
    x + y ≠ number (.zero .negative) := by
  intro h
  have hsum : (x + y).isFinite = true := by
    rw [h]
    exact isFinite_number (.zero _)
  obtain ⟨hfinite, hfinite'⟩ := isFinite_of_isFinite_add hsum
  rcases finite_cases hfinite with ⟨s, rfl⟩ | ⟨s, m₁, e₁, h₁, rfl⟩
  · rcases finite_cases hfinite' with ⟨t, rfl⟩ | ⟨t, m₂, e₂, h₂, rfl⟩
    · cases s with
      | negative => exact hx rfl
      | positive =>
        rw [number_add (.zero _) (.zero t)] at h
        cases t <;> cases number_injective (.zero .positive) (.zero .negative) h
    · rw [number_add (.zero s) (.finite t h₂)] at h
      cases number_injective (.finite t h₂) (.zero .negative) h
  · rcases finite_cases hfinite' with ⟨t, rfl⟩ | ⟨t, m₂, e₂, h₂, rfl⟩
    · rw [number_add (.finite s h₁) (.zero t)] at h
      cases number_injective (.finite s h₁) (.zero .negative) h
    · rw [number_add (.finite s h₁) (.finite t h₂)] at h
      exact number_normalize_ne _ (le_min h₁.least h₂.least) h

end PlotSheet.Binary
