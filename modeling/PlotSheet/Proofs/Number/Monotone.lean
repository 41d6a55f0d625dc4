import PlotSheet.Proofs.Number.RoundingOrder

/-!
# Arithmetic is monotone

Sums, products and conversions from integers are the exact results, rounded. As rounding is
monotone, so are they, as long as no undefined values are involved.

## Main definitions

* `IsRounding`: a number is a value rounded

## Main results

* `isRounding_ofNat`, `isRounding_mul`, `isRounding_add`: results are rounded exact results
* `ofNat_mono`, `mul_mono`, `add_mono`: arithmetic is monotone
-/

namespace PlotSheet.Binary

open Float.Model Float.Model.UnpackedFloat

/-! ## Exact results -/

section Rounds

variable {m : Nat} {e : Int}

theorem rounds_zero : Rounds 0 0 := by
  refine ⟨.positive, 0, 0, rfl, rfl, le_rfl, leastExponent, 0, ⟨le_rfl, by positivity, .inl rfl⟩,
    ⟨?_, ?_, fun _ => rfl⟩, by simp⟩
  · rw [zero_div]
    norm_num
  · rw [zero_div]
    norm_num

/-- A finite magnitude is rounded to itself. -/
theorem IsCanonical.isRounded (h : IsCanonical m e) : IsRounded (m * 2 ^ e) (m * 2 ^ e) := by
  have hpos : (0 : Rat) < 2 ^ e := by positivity
  refine ⟨e, m, ⟨h.least, ?_, ?_⟩, ?_, rfl⟩
  · rw [add_comm]
    exact h.value_lt
  · refine h.full.symm.imp_right fun hfull => ?_
    have hwidth : (2 : Rat) ^ (52 : Int) ≤ m := by exact_mod_cast hfull
    rw [add_comm, zpow_add₀ two_ne_zero]
    exact mul_le_mul_of_nonneg_right hwidth hpos.le
  · rw [mul_div_cancel_right₀ _ hpos.ne']
    exact ⟨by linarith, by linarith, by rintro (h | h) <;> linarith⟩

/-- A finite number is rounded to itself. -/
theorem rounds_value (s : Sign) (h : IsCanonical m e) :
    Rounds (signed s (m * 2 ^ e)) (signed s (m * 2 ^ e)) :=
  ⟨s, _, _, rfl, rfl, h.value_pos.le, h.isRounded⟩

theorem signed_mul_signed (s₁ s₂ : Sign) (x y : Rat) :
    signed s₁ x * signed s₂ y = signed (s₁ * s₂) (x * y) := by
  cases s₁ <;> cases s₂
  · exact neg_mul_neg x y
  · exact neg_mul x y
  · exact mul_neg x y
  · rfl

end Rounds

/-- The number is the value, rounded. -/
def IsRounding (x : Float) (y : Rat) : Prop :=
  ∃ v, Rounds v y ∧ exact x = clamp v ∧ x.isNaN = false

theorem isRounding_number {u : UnpackedFloat} {y : Rat} (hu : Sized u) (h : Rounds (value u) y) :
    IsRounding (number u) y :=
  ⟨_, h, exact_number_of_sized hu⟩

/-- **Larger values are rounded to larger numbers.** -/
theorem IsRounding.le {x x' : Float} {y y' : Rat} (h : IsRounding x y) (h' : IsRounding x' y')
    (hle : y ≤ y') : x ≤ x' := by
  obtain ⟨v, hv, hx, hnan⟩ := h
  obtain ⟨v', hv', hx', hnan'⟩ := h'
  rw [le_iff_exact_le hnan hnan', hx, hx']
  exact clamp_mono (hv.mono hv' hle)

/-! ## Finite numbers -/

section Finite

variable {x y : Float}

theorem isFinite_number {u : UnpackedFloat} (h : Canonical u) :
    (number u).isFinite = u.isFinite := by
  have hfinite : (number u).isFinite = (number u).toModel.unpack.isFinite := rfl
  rw [hfinite, unpack_number h]

/-- A finite number is a zero, or has a mantissa. -/
theorem finite_cases (h : x.isFinite = true) :
    (∃ s, x = number (.zero s)) ∨
      ∃ s m e, ∃ h : IsCanonical m e, x = number (.finite s m e h.pos) := by
  obtain ⟨u, hu, rfl⟩ := exists_eq_number x
  rw [isFinite_number hu] at h
  cases hu with
  | notANumber => cases h
  | infinity s => cases h
  | zero s => exact .inl ⟨s, rfl⟩
  | finite s hc => exact .inr ⟨s, _, _, hc, rfl⟩

end Finite

/-! ## Operations -/

section Operations

/-- The exact product of two finite magnitudes is wide enough, or at the least exponent. -/
theorem targetExponent_mul {m₁ m₂ : Nat} {e₁ e₂ : Int} (h₁ : IsCanonical m₁ e₁)
    (h₂ : IsCanonical m₂ e₂) :
    e₁ + e₂ ≤ Format.binary64.targetExponent (totalExponent (m₁ * m₂) (e₁ + e₂)) := by
  rw [targetExponent_eq]
  have hpos₁ := h₁.pos
  have hpos₂ := h₂.pos
  have hwide (h : fractionSize ≤ m₁ ∨ fractionSize ≤ m₂) : 52 ≤ (m₁ * m₂).log2 := by
    refine (Nat.le_log2 (Nat.mul_pos hpos₁ hpos₂).ne').2 ?_
    rcases h with h | h
    · exact h.trans (Nat.le_mul_of_pos_right m₁ hpos₂)
    · exact h.trans (Nat.le_mul_of_pos_left m₂ hpos₁)
  rcases h₁.full with hfull | hleast₁
  · have := hwide (.inl hfull)
    omega
  · rcases h₂.full with hfull | hleast₂
    · have := hwide (.inr hfull)
      omega
    · rw [hleast₁, hleast₂]
      exact le_max_of_le_right (by decide)

theorem sized_mul_finite {m₁ m₂ : Nat} {e₁ e₂ : Int} (s₁ s₂ : Sign) (h₁ : IsCanonical m₁ e₁)
    (h₂ : IsCanonical m₂ e₂) :
    Sized (UnpackedFloat.mul Format.binary64 (.finite s₁ m₁ e₁ h₁.pos) (.finite s₂ m₂ e₂ h₂.pos)) ∧
      Rounds (value (UnpackedFloat.mul Format.binary64 (.finite s₁ m₁ e₁ h₁.pos)
        (.finite s₂ m₂ e₂ h₂.pos))) (signed s₁ (m₁ * 2 ^ e₁) * signed s₂ (m₂ * 2 ^ e₂)) := by
  have hpos : (0 : Rat) < 2 ^ (e₁ + e₂) := by positivity
  have hexact : (m₁ * 2 ^ e₁ : Rat) * (m₂ * 2 ^ e₂) / 2 ^ (e₁ + e₂) = ((m₁ * m₂ : Nat) : Rat) := by
    rw [div_eq_iff hpos.ne', mul_mul_mul_comm, ← zpow_add₀ two_ne_zero, Nat.cast_mul]
  have hstands : StandsFor (.ofMantissaAndAccuracy (m₁ * m₂) .exact)
      ((m₁ * 2 ^ e₁ : Rat) * (m₂ * 2 ^ e₂) / 2 ^ (e₁ + e₂)) := by
    rw [hexact]
    exact standsFor_exact _
  obtain ⟨v, hv, hvalue, hsized⟩ := exists_roundWithAccuracy (s₁ * s₂)
    (Nat.mul_pos h₁.pos h₂.pos).ne' hstands (targetExponent_mul h₁ h₂)
  refine ⟨hsized, s₁ * s₂, _, v, signed_mul_signed .., hvalue, ?_, hv⟩
  exact (mul_pos h₁.value_pos h₂.value_pos).le

/-- **Products are rounded exact products.** -/
theorem isRounding_mul {x y : Float} (hx : x.isFinite = true) (hy : y.isFinite = true) :
    IsRounding (x * y) (exact x * exact y) := by
  rcases finite_cases hx with ⟨s₁, rfl⟩ | ⟨s₁, m₁, e₁, h₁, rfl⟩
  · have hzero : Rounds (value (.zero s₁)) (exact (number (.zero s₁)) * exact y) := by
      rw [exact_number (.zero s₁), value, zero_mul]
      exact rounds_zero
    rcases finite_cases hy with ⟨s₂, rfl⟩ | ⟨s₂, m₂, e₂, h₂, rfl⟩
    · rw [number_mul (.zero s₁) (.zero s₂)]
      exact isRounding_number (.zero _) hzero
    · rw [number_mul (.zero s₁) (.finite s₂ h₂)]
      exact isRounding_number (.zero _) hzero
  · rcases finite_cases hy with ⟨s₂, rfl⟩ | ⟨s₂, m₂, e₂, h₂, rfl⟩
    · rw [number_mul (.finite s₁ h₁) (.zero s₂), exact_number (.zero s₂), value, mul_zero]
      exact isRounding_number (.zero _) rounds_zero
    · obtain ⟨hsized, hrounds⟩ := sized_mul_finite s₁ s₂ h₁ h₂
      rw [number_mul (.finite s₁ h₁) (.finite s₂ h₂), exact_number (.finite s₁ h₁),
        exact_number (.finite s₂ h₂)]
      exact isRounding_number hsized hrounds

/-- A magnitude of any width is widened before it is cut. -/
theorem exists_round (s : Sign) {m : Nat} (hne : m ≠ 0) (e : Int) :
    ∃ v, IsRounded v (m * 2 ^ e) ∧ value (round Format.binary64 s m e) = signed s v ∧
      Sized (round Format.binary64 s m e) := by
  generalize ht : Format.binary64.targetExponent (totalExponent m e) = t
  have hround : round Format.binary64 s m e =
      roundWithAccuracy Format.binary64 s (m * 2 ^ (e - t).toNat) (e - (e - t).toNat) .exact := by
    simp only [UnpackedFloat.round, ht, decreaseExponent, Nat.shiftLeft_eq]
  rw [targetExponent_eq] at ht
  rw [hround]
  generalize hk : (e - t).toNat = k
  have hne' : m * 2 ^ k ≠ 0 := Nat.mul_ne_zero hne (Nat.two_pow_pos k).ne'
  have hlog : m.log2 + k ≤ (m * 2 ^ k).log2 := by
    rw [Nat.le_log2 hne', Nat.pow_add]
    exact Nat.mul_le_mul_right _ (Nat.log2_self_le hne)
  apply exists_roundWithAccuracy s hne'
  · have hpos : (0 : Rat) < 2 ^ (e - (k : Int)) := by positivity
    have hexact : (m * 2 ^ e : Rat) / 2 ^ (e - (k : Int)) = ((m * 2 ^ k : Nat) : Rat) := by
      rw [div_eq_iff hpos.ne', Nat.cast_mul, Nat.cast_pow, Nat.cast_two, mul_assoc, ← zpow_natCast,
        ← zpow_add₀ two_ne_zero, add_sub_cancel]
    rw [hexact]
    exact standsFor_exact _
  · rw [targetExponent_eq]
    omega

/-- A sum of mantissas is rounded with its sign. -/
theorem rounds_normalize (i : Int) (e : Int) :
    Rounds (value (UnpackedFloat.normalize Format.binary64 i e .positive)) (i * 2 ^ e) ∧
      Sized (UnpackedFloat.normalize Format.binary64 i e .positive) := by
  have hpos : (0 : Rat) < 2 ^ e := by positivity
  rcases lt_trichotomy i 0 with hneg | rfl | hpositive
  · have hcast : (((-i).toNat : Nat) : Rat) = -i := by
      exact_mod_cast Int.toNat_of_nonneg (by omega)
    obtain ⟨v, hv, hvalue, hsized⟩ := exists_round .negative (m := (-i).toNat) (by omega) e
    rw [UnpackedFloat.normalize, Int.compare_eq_lt.2 hneg]
    refine ⟨⟨.negative, _, v, ?_, hvalue, by positivity, hv⟩, hsized⟩
    rw [hcast, signed]
    ring
  · rw [Int.cast_zero, zero_mul]
    exact ⟨rounds_zero, .zero _⟩
  · have hcast : ((i.toNat : Nat) : Rat) = i := by
      exact_mod_cast Int.toNat_of_nonneg (by omega)
    obtain ⟨v, hv, hvalue, hsized⟩ := exists_round .positive (m := i.toNat) (by omega) e
    rw [UnpackedFloat.normalize, Int.compare_eq_gt.2 hpositive]
    refine ⟨⟨.positive, _, v, ?_, hvalue, by positivity, hv⟩, hsized⟩
    rw [hcast, signed]

/-- A signed magnitude in units of a smaller power of two. -/
theorem apply_mul_zpow (s : Sign) (m : Nat) {e t : Int} (h : t ≤ e) :
    ((s.apply ((m <<< (e - t).toNat : Nat) : Int) : Int) : Rat) * 2 ^ t = signed s (m * 2 ^ e) := by
  have hshift : (((m <<< (e - t).toNat : Nat) : Int) : Rat) * 2 ^ t = m * 2 ^ e := by
    have hexponent : ((e - t).toNat : Int) + t = e := by omega
    rw [Nat.shiftLeft_eq, Int.cast_natCast, Nat.cast_mul, Nat.cast_pow, Nat.cast_two, mul_assoc,
      ← zpow_natCast, ← zpow_add₀ two_ne_zero, hexponent]
  cases s with
  | positive => exact hshift
  | negative =>
    rw [Sign.apply, Int.cast_neg, neg_mul, hshift]
    rfl

/-- **Sums are rounded exact sums.** -/
theorem isRounding_add {x y : Float} (hx : x.isFinite = true) (hy : y.isFinite = true) :
    IsRounding (x + y) (exact x + exact y) := by
  rcases finite_cases hx with ⟨s₁, rfl⟩ | ⟨s₁, m₁, e₁, h₁, rfl⟩
  · rcases finite_cases hy with ⟨s₂, rfl⟩ | ⟨s₂, m₂, e₂, h₂, rfl⟩
    · rw [number_add (.zero s₁) (.zero s₂), exact_number (.zero s₁), exact_number (.zero s₂), value,
        value, add_zero]
      cases s₁ <;> cases s₂
      all_goals exact isRounding_number (.zero _) rounds_zero
    · rw [number_add (.zero s₁) (.finite s₂ h₂), exact_number (.zero s₁),
        exact_number (.finite s₂ h₂), value, zero_add]
      exact isRounding_number (.finite s₂ h₂.pos h₂.lt h₂.least h₂.full) (rounds_value s₂ h₂)
  · rcases finite_cases hy with ⟨s₂, rfl⟩ | ⟨s₂, m₂, e₂, h₂, rfl⟩
    · rw [number_add (.finite s₁ h₁) (.zero s₂), exact_number (.finite s₁ h₁),
        exact_number (.zero s₂), value, value, add_zero]
      exact isRounding_number (.finite s₁ h₁.pos h₁.lt h₁.least h₁.full) (rounds_value s₁ h₁)
    · rw [number_add (.finite s₁ h₁) (.finite s₂ h₂), exact_number (.finite s₁ h₁),
        exact_number (.finite s₂ h₂), value, value,
        ← apply_mul_zpow s₁ m₁ (min_le_left e₁ e₂), ← apply_mul_zpow s₂ m₂ (min_le_right e₁ e₂),
        ← add_mul, ← Int.cast_add]
      obtain ⟨hrounds, hsized⟩ := rounds_normalize
        (s₁.apply (m₁ <<< (e₁ - min e₁ e₂).toNat : Nat) +
          s₂.apply (m₂ <<< (e₂ - min e₁ e₂).toNat : Nat)) (min e₁ e₂)
      exact isRounding_number hsized hrounds

/-- Integers of the width of a mantissa are numbers. -/
theorem exact_toFloat {n : Nat} (hlt : n < 2 * fractionSize) :
    n.toUInt64.toFloat.isFinite = true ∧ exact n.toUInt64.toFloat = n := by
  rcases Nat.eq_zero_or_pos n with rfl | hpos
  · have hzero : (0 : Nat).toUInt64.toFloat = number (.zero .positive) := by decide
    rw [hzero, isFinite_number (.zero _), exact_number (.zero _), Nat.cast_zero]
    exact ⟨rfl, rfl⟩
  · obtain ⟨m, e, h, -, hvalue, hnumber⟩ := exists_toFloat_eq hpos hlt
    rw [hnumber, isFinite_number (.finite _ h), exact_number (.finite _ h)]
    exact ⟨rfl, hvalue⟩

/-- **Integers are rounded.** -/
theorem isRounding_ofNat (n : Nat) : IsRounding (Float.ofNat n) n := by
  have hofNat : Float.ofNat n = Float.ofScientific n false 0 := rfl
  rw [hofNat, Float.ofScientific]
  by_cases hsmall : n < 2 ^ 53 ∧ 0 ≤ 22
  · obtain ⟨hfinite, hexact⟩ := exact_toFloat hsmall.1
    obtain ⟨m, e, h, -, hvalue, hnumber⟩ := exists_power_eq (k := 0) (by decide)
    have hone : exact Float.exactlyRepresentablePowersOfTen[0] = 1 := by
      rw [hnumber, exact_number (.finite _ h)]
      exact hvalue.trans (pow_zero 10)
    have hfinite' : Float.exactlyRepresentablePowersOfTen[0].isFinite = true := by
      rw [hnumber, isFinite_number (.finite _ h)]
      rfl
    have hproduct := isRounding_mul hfinite hfinite'
    rw [hexact, hone, mul_one] at hproduct
    rw [dif_pos hsmall]
    exact hproduct
  · rw [dif_neg hsmall]
    have hlarge : 2 ^ 53 ≤ n := by
      by_contra hlt
      exact hsmall ⟨Nat.lt_of_not_le hlt, by decide⟩
    have hne : n ≠ 0 := by omega
    have hform : UnpackedFloat.ofScientific Format.binary64 n 0 =
        roundWithAccuracy Format.binary64 .positive (n * 2 ^ 53) (-53) .exact := by
      have htiny : ¬ (0 : Int) < -((2 ^ 11 : Int) + n.log2) := by omega
      rw [UnpackedFloat.ofScientific, dif_neg hne, if_neg (by decide), if_neg htiny,
        if_pos le_rfl, ← Nat.shiftLeft_eq, ← Nat.mul_one (n <<< 53)]
      rfl
    have hstands : StandsFor (.ofMantissaAndAccuracy (n * 2 ^ 53) .exact)
        ((n : Rat) / 2 ^ (-53 : Int)) := by
      have hexact : (n : Rat) / 2 ^ (-53 : Int) = ((n * 2 ^ 53 : Nat) : Rat) := by
        rw [zpow_neg, div_inv_eq_mul]
        norm_num
      rw [hexact]
      exact standsFor_exact _
    have hlog : 53 ≤ (n * 2 ^ 53).log2 := by
      rw [Nat.le_log2 (Nat.mul_ne_zero hne (by decide))]
      exact Nat.le_mul_of_pos_left _ (Nat.pos_of_ne_zero hne)
    obtain ⟨v, hv, hvalue, hsized⟩ := exists_roundWithAccuracy .positive
      (Nat.mul_ne_zero hne (by decide)) hstands (by rw [targetExponent_eq]; omega)
    rw [← hform] at hvalue hsized
    exact isRounding_number hsized ⟨.positive, n, v, rfl, hvalue, Nat.cast_nonneg n, hv⟩

end Operations

/-! ## Monotonicity -/

section Monotone

variable {x y z : Float}

theorem isNaN_of_isFinite (h : x.isFinite = true) : x.isNaN = false := by
  rcases finite_cases h with ⟨s, rfl⟩ | ⟨s, m, e, hc, rfl⟩
  · exact isNaN_number (.zero s)
  · exact isNaN_number (.finite s hc)

theorem eq_infinity (hnan : x.isNaN = false) (hfinite : ¬ x.isFinite = true) :
    ∃ s, x = number (.infinity s) := by
  obtain ⟨u, hu, rfl⟩ := exists_eq_number x
  rw [isFinite_number hu] at hfinite
  cases hu with
  | notANumber => cases hnan
  | infinity s => exact ⟨s, rfl⟩
  | zero s => exact absurd rfl hfinite
  | finite s h => exact absurd rfl hfinite

theorem infinity_add (s : Sign) (hx : x.isFinite = true) :
    number (.infinity s) + x = number (.infinity s) := by
  rcases finite_cases hx with ⟨s', rfl⟩ | ⟨s', m, e, h, rfl⟩
  · exact number_add (.infinity s) (.zero s')
  · exact number_add (.infinity s) (.finite s' h)

theorem exact_bounds (h : x.isFinite = true) : -overflow < exact x ∧ exact x < overflow := by
  have hoverflow := overflow_pos
  rcases finite_cases h with ⟨s, rfl⟩ | ⟨s, m, e, hc, rfl⟩
  · rw [exact_number (.zero s), value]
    exact ⟨by linarith, hoverflow⟩
  · have hpos := hc.value_pos
    have hlt := hc.value_lt_overflow
    rw [exact_number (.finite s hc), value]
    cases s with
    | positive => exact ⟨by rw [signed]; linarith, hlt⟩
    | negative => exact ⟨neg_lt_neg hlt, by rw [signed]; linarith⟩

theorem exact_le_of_le (hx : x.isFinite = true) (hy : y.isFinite = true) (h : x ≤ y) :
    exact x ≤ exact y :=
  (le_iff_exact_le (isNaN_of_isFinite hx) (isNaN_of_isFinite hy)).1 h

/-- What lies between finite numbers is finite. -/
theorem isFinite_of_le_of_le (hx : x.isFinite = true) (hz : z.isFinite = true) (h : x ≤ y)
    (h' : y ≤ z) : y.isFinite = true := by
  by_contra hfinite
  obtain ⟨s, rfl⟩ := eq_infinity (isNaN_eq_false_of_le h).2 hfinite
  have hx' := exact_bounds hx
  have hz' := exact_bounds hz
  have hnan : (number (.infinity s)).isNaN = false := isNaN_number (.infinity s)
  rw [le_iff_exact_le (isNaN_of_isFinite hx) hnan, exact_number (.infinity s)] at h
  rw [le_iff_exact_le hnan (isNaN_of_isFinite hz), exact_number (.infinity s)] at h'
  cases s with
  | positive => exact absurd h' (not_le.2 hz'.2)
  | negative => exact absurd h (not_le.2 hx'.1)

/-- Larger integers are rounded to larger numbers. -/
theorem ofNat_mono {n m : Nat} (h : n ≤ m) : Float.ofNat n ≤ Float.ofNat m :=
  (isRounding_ofNat n).le (isRounding_ofNat m) (Nat.cast_le.2 h)

/-- Products with a number that is not negative are monotone. -/
theorem mul_mono (hx : x.isFinite = true) (hy : y.isFinite = true)
    (hz : z.isFinite = true) (hnonneg : 0 ≤ exact z) (h : x ≤ y) : x * z ≤ y * z :=
  (isRounding_mul hx hz).le (isRounding_mul hy hz)
    (mul_le_mul_of_nonneg_right (exact_le_of_le hx hy h) hnonneg)

/-- Sums with finite numbers are monotone. -/
theorem add_mono (hx : x.isFinite = true) (hy : y.isFinite = true) (hz : z.isNaN = false)
    (h : x ≤ y) : z + x ≤ z + y := by
  by_cases hfinite : z.isFinite = true
  · exact (isRounding_add hfinite hx).le (isRounding_add hfinite hy)
      (by linarith [exact_le_of_le hx hy h])
  · obtain ⟨s, rfl⟩ := eq_infinity hz hfinite
    rw [infinity_add s hx, infinity_add s hy, le_iff_exact_le hz hz]

end Monotone

end PlotSheet.Binary
