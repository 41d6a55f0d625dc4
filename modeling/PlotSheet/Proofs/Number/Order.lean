import PlotSheet.Proofs.Number.Arithmetic

/-!
# The order of floating-point numbers

Two numbers that are not undefined compare as their exact values do, where an infinity counts as the
first power of two past all finite numbers.

## Main definitions

* `value`: the exact value of a form
* `exact`: the exact value of a number

## Main results

* `compare_eq`: forms compare by their values
* `lt_iff_exact_lt`, `le_iff_exact_le`: numbers compare by their values
* `isNaN_eq_false_of_le`, `not_infinity_lt`: nothing compares with an undefined value, and nothing
  exceeds the positive infinity
-/

namespace PlotSheet.Binary

open Float.Model Float.Model.UnpackedFloat

/-! ## Exact values -/

/-- A magnitude with a sign. -/
def signed : Sign → Rat → Rat
  | .positive, x => x
  | .negative, x => -x

/-- The first power of two past all finite numbers. -/
def overflow : Rat := 2 ^ (1024 : Int)

/-- The exact value of a form. Infinities count as the power of two past all finite numbers, and
undefined values as zero. -/
def value : UnpackedFloat → Rat
  | .notANumber => 0
  | .infinity s => signed s overflow
  | .zero _ => 0
  | .finite s m e _ => signed s (m * 2 ^ e)

/-- The exact value of a number. -/
def exact (x : Float) : Rat :=
  value x.toModel.unpack

theorem exact_number {u : UnpackedFloat} (h : Canonical u) : exact (number u) = value u := by
  rw [exact, unpack_number h]

theorem exact_zero : exact 0 = 0 := by
  have hzero : (0 : Float) = number (.zero .positive) := by decide
  rw [hzero, exact_number (.zero .positive)]
  rfl

theorem overflow_pos : 0 < overflow := by
  rw [overflow]
  positivity

section Finite

variable {m₁ m₂ : Nat} {e₁ e₂ : Int}

theorem IsCanonical.value_pos (h : IsCanonical m₁ e₁) : (0 : Rat) < m₁ * 2 ^ e₁ :=
  mul_pos (Nat.cast_pos.2 h.pos) (by positivity)

theorem IsCanonical.value_lt (h : IsCanonical m₁ e₁) : (m₁ : Rat) * 2 ^ e₁ < 2 ^ (53 + e₁) := by
  have hlt : (m₁ : Rat) < 2 ^ (53 : Int) := by exact_mod_cast h.lt
  rw [zpow_add₀ two_ne_zero]
  exact mul_lt_mul_of_pos_right hlt (by positivity)

theorem IsCanonical.value_lt_overflow (h : IsCanonical m₁ e₁) : (m₁ : Rat) * 2 ^ e₁ < overflow := by
  have := h.greatest
  exact h.value_lt.trans_le (zpow_le_zpow_right₀ one_le_two (by omega))

/-- The number with the larger exponent is the larger one: its mantissa is full. -/
theorem value_lt_of_exponent_lt (h₁ : IsCanonical m₁ e₁) (h₂ : IsCanonical m₂ e₂) (h : e₁ < e₂) :
    (m₁ : Rat) * 2 ^ e₁ < m₂ * 2 ^ e₂ := by
  have hfull : fractionSize ≤ m₂ := h₂.full.resolve_right (h₁.least.trans_lt h).ne'
  have hwidth : (2 : Rat) ^ (52 : Int) ≤ m₂ := by exact_mod_cast hfull
  calc (m₁ : Rat) * 2 ^ e₁ < 2 ^ (53 + e₁) := h₁.value_lt
    _ ≤ 2 ^ (52 + e₂) := zpow_le_zpow_right₀ one_le_two (by omega)
    _ = 2 ^ (52 : Int) * 2 ^ e₂ := zpow_add₀ two_ne_zero _ _
    _ ≤ m₂ * 2 ^ e₂ := mul_le_mul_of_nonneg_right hwidth (by positivity)

/-- Finite magnitudes compare by their exponents, and then by their mantissas. -/
theorem compare_magnitudes (h₁ : IsCanonical m₁ e₁) (h₂ : IsCanonical m₂ e₂) :
    (compare e₁ e₂).then (compare m₁ m₂) = compare ((m₁ : Rat) * 2 ^ e₁) (m₂ * 2 ^ e₂) := by
  rcases lt_trichotomy e₁ e₂ with h | rfl | h
  · rw [compare_lt_iff_lt.2 h, compare_lt_iff_lt.2 (value_lt_of_exponent_lt h₁ h₂ h)]
    rfl
  · have hpos : (0 : Rat) < 2 ^ e₁ := by positivity
    rw [compare_eq_iff_eq.2 rfl, Ordering.eq_then]
    rcases lt_trichotomy m₁ m₂ with h | rfl | h
    · rw [compare_lt_iff_lt.2 h,
        compare_lt_iff_lt.2 (mul_lt_mul_of_pos_right (Nat.cast_lt.2 h) hpos)]
    · rw [compare_eq_iff_eq.2 rfl, compare_eq_iff_eq.2 rfl]
    · rw [compare_gt_iff_gt.2 h,
        compare_gt_iff_gt.2 (mul_lt_mul_of_pos_right (Nat.cast_lt.2 h) hpos)]
  · rw [compare_gt_iff_gt.2 h, compare_gt_iff_gt.2 (value_lt_of_exponent_lt h₂ h₁ h)]
    rfl

end Finite

/-! ## Comparisons -/

section Compare

variable {u v : UnpackedFloat}

theorem compare_neg_neg (x y : Rat) : compare (-x) (-y) = (compare x y).swap := by
  rcases lt_trichotomy x y with h | rfl | h
  · rw [compare_lt_iff_lt.2 h, compare_gt_iff_gt.2 (neg_lt_neg h)]
    rfl
  · rw [compare_eq_iff_eq.2 rfl, compare_eq_iff_eq.2 rfl]
    rfl
  · rw [compare_gt_iff_gt.2 h, compare_lt_iff_lt.2 (neg_lt_neg h)]
    rfl

/-- **Forms compare by their values.** -/
theorem compare_eq (hu : Canonical u) (hv : Canonical v) (hu' : u ≠ .notANumber)
    (hv' : v ≠ .notANumber) : u.compare v = some (compare (value u) (value v)) := by
  have hoverflow := overflow_pos
  have same (x : Rat) : some Ordering.eq = some (compare x x) := by
    rw [compare_eq_iff_eq.2 rfl]
  have below {x y : Rat} (h : x < y) : some Ordering.lt = some (compare x y) := by
    rw [compare_lt_iff_lt.2 h]
  have above {x y : Rat} (h : y < x) : some Ordering.gt = some (compare x y) := by
    rw [compare_gt_iff_gt.2 h]
  cases hu with
  | notANumber => exact absurd rfl hu'
  | infinity s₁ =>
    cases hv with
    | notANumber => exact absurd rfl hv'
    | infinity s₂ =>
      cases s₁ <;> cases s₂
      · exact same _
      · exact below (by simp only [value, signed]; linarith)
      · exact above (by simp only [value, signed]; linarith)
      · exact same _
    | zero s₂ =>
      cases s₁
      · exact below (by simp only [value, signed]; linarith)
      · exact above (by simp only [value, signed]; linarith)
    | finite s₂ h₂ =>
      have hpos := h₂.value_pos
      have hlt := h₂.value_lt_overflow
      cases s₁ <;> cases s₂
      · exact below (by simp only [value, signed]; linarith)
      · exact below (by simp only [value, signed]; linarith)
      · exact above (by simp only [value, signed]; linarith)
      · exact above (by simp only [value, signed]; linarith)
  | zero s₁ =>
    cases hv with
    | notANumber => exact absurd rfl hv'
    | infinity s₂ =>
      cases s₂
      · exact above (by simp only [value, signed]; linarith)
      · exact below (by simp only [value, signed]; linarith)
    | zero s₂ => exact same _
    | finite s₂ h₂ =>
      have hpos := h₂.value_pos
      cases s₂
      · exact above (by simp only [value, signed]; linarith)
      · exact below (by simp only [value, signed]; linarith)
  | finite s₁ h₁ =>
    have hpos₁ := h₁.value_pos
    have hlt₁ := h₁.value_lt_overflow
    cases hv with
    | notANumber => exact absurd rfl hv'
    | infinity s₂ =>
      cases s₁ <;> cases s₂
      · exact above (by simp only [value, signed]; linarith)
      · exact below (by simp only [value, signed]; linarith)
      · exact above (by simp only [value, signed]; linarith)
      · exact below (by simp only [value, signed]; linarith)
    | zero s₂ =>
      cases s₁
      · exact below (by simp only [value, signed]; linarith)
      · exact above (by simp only [value, signed]; linarith)
    | finite s₂ h₂ =>
      have hpos₂ := h₂.value_pos
      have hmagnitudes := compare_magnitudes h₁ h₂
      cases s₁ <;> cases s₂
      · rw [value, value, signed, signed, compare_neg_neg, ← hmagnitudes]
        rfl
      · exact below (by simp only [value, signed]; linarith)
      · exact above (by simp only [value, signed]; linarith)
      · rw [value, value, signed, signed, ← hmagnitudes]
        rfl

section Numbers

variable {x y z : Float}

theorem lt_number_iff (hu : Canonical u) (hv : Canonical v) :
    number u < number v ↔ u.compare v = some .lt := by
  have hlt : number u < number v ↔
      ((number u).toModel.unpack.compare (number v).toModel.unpack == some .lt) = true :=
    decide_eq_true_iff
  rw [hlt, unpack_number hu, unpack_number hv, beq_iff_eq]

theorem le_number_iff (hu : Canonical u) (hv : Canonical v) :
    number u ≤ number v ↔ (u.compare v).any (·.isLE) = true := by
  have hle : number u ≤ number v ↔
      ((number u).toModel.unpack.compare (number v).toModel.unpack).any (·.isLE) = true :=
    decide_eq_true_iff
  rw [hle, unpack_number hu, unpack_number hv]

theorem isNaN_number_eq_false_iff (hu : Canonical u) :
    (number u).isNaN = false ↔ u ≠ .notANumber := by
  rw [isNaN_number hu]
  cases hu with
  | notANumber => exact iff_of_false (fun h => nomatch h) (fun h => h rfl)
  | infinity s => exact iff_of_true rfl (fun h => nomatch h)
  | zero s => exact iff_of_true rfl (fun h => nomatch h)
  | finite s h => exact iff_of_true rfl (fun h => nomatch h)

/-- Numbers compare by their values. -/
theorem lt_iff_exact_lt (hx : x.isNaN = false) (hy : y.isNaN = false) :
    x < y ↔ exact x < exact y := by
  obtain ⟨u, hu, rfl⟩ := exists_eq_number x
  obtain ⟨v, hv, rfl⟩ := exists_eq_number y
  rw [isNaN_number_eq_false_iff hu] at hx
  rw [isNaN_number_eq_false_iff hv] at hy
  rw [lt_number_iff hu hv, exact_number hu, exact_number hv, compare_eq hu hv hx hy,
    Option.some.injEq, compare_lt_iff_lt]

theorem le_iff_exact_le (hx : x.isNaN = false) (hy : y.isNaN = false) :
    x ≤ y ↔ exact x ≤ exact y := by
  obtain ⟨u, hu, rfl⟩ := exists_eq_number x
  obtain ⟨v, hv, rfl⟩ := exists_eq_number y
  rw [isNaN_number_eq_false_iff hu] at hx
  rw [isNaN_number_eq_false_iff hv] at hy
  rw [le_number_iff hu hv, exact_number hu, exact_number hv, compare_eq hu hv hx hy,
    Option.any_some, Ordering.isLE_iff_ne_gt, compare_gt_iff_gt, not_lt]

/-- Undefined values compare with nothing. -/
theorem isNaN_eq_false_of_le (h : x ≤ y) : x.isNaN = false ∧ y.isNaN = false := by
  obtain ⟨u, hu, rfl⟩ := exists_eq_number x
  obtain ⟨v, hv, rfl⟩ := exists_eq_number y
  rw [le_number_iff hu hv] at h
  rw [isNaN_number_eq_false_iff hu, isNaN_number_eq_false_iff hv]
  constructor
  · rintro rfl
    cases h
  · rintro rfl
    cases hu <;> cases h

theorem le_of_lt_number (h : x < y) : x ≤ y := by
  obtain ⟨u, hu, rfl⟩ := exists_eq_number x
  obtain ⟨v, hv, rfl⟩ := exists_eq_number y
  rw [lt_number_iff hu hv] at h
  rw [le_number_iff hu hv, h]
  rfl

theorem isNaN_eq_false_of_lt (h : x < y) : x.isNaN = false ∧ y.isNaN = false :=
  isNaN_eq_false_of_le (le_of_lt_number h)

theorem lt_of_lt_le (h : x < y) (h' : y ≤ z) : x < z := by
  obtain ⟨hx, hy⟩ := isNaN_eq_false_of_lt h
  obtain ⟨-, hz⟩ := isNaN_eq_false_of_le h'
  rw [lt_iff_exact_lt hx hy] at h
  rw [le_iff_exact_le hy hz] at h'
  exact (lt_iff_exact_lt hx hz).2 (h.trans_le h')

/-- Nothing exceeds the positive infinity. -/
theorem not_infinity_lt (x : Float) : ¬ number (.infinity .positive) < x := by
  obtain ⟨u, hu, rfl⟩ := exists_eq_number x
  rw [lt_number_iff (.infinity .positive) hu]
  cases hu with
  | notANumber => exact fun h => nomatch h
  | infinity s => cases s <;> exact fun h => nomatch h
  | zero s => exact fun h => nomatch h
  | finite s h => exact fun h => nomatch h

end Numbers

end Compare

end PlotSheet.Binary
