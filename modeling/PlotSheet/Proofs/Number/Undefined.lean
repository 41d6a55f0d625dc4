import PlotSheet.Number.Scalar
import PlotSheet.Proofs.Number.Order

/-!
# Undefined numbers

Rounding never gives an undefined number, so that there are few ways to get one. A product is
undefined if a factor is, or if it is the product of zero and an infinity; a literal is undefined
only if it is written so.

## Main results

* `isNaN_number_eq`: a number is undefined if the form that it is packed from is
* `isNaN_mul_iff`: the undefined products
* `isNaN_toFloat_iff`: the undefined literals
* `lt_iff_isNaN_eq_false`: undefined numbers are the only ones that do not compare
-/

namespace PlotSheet.Binary

open Float.Model Float.Model.UnpackedFloat

/-! ## Packed forms -/

/-- Words without an exponent of ones stand for finite numbers. -/
theorem isNaN_unpack_packComponents {s : Sign} {e : BitVec 11} {m : BitVec 52} (h : e ≠ -1#11) :
    (UnpackedFloat.unpack Format.binary64 (packComponents Format.binary64 s e m)).isNaN =
      false := by
  by_cases hzero : e = 0#11
  · subst hzero
    by_cases hm : m = 0#52
    · subst hm
      rw [unpack_zero]
      rfl
    · have hpos : 0 < m.toNat := Nat.pos_of_ne_zero fun h => hm (BitVec.eq_of_toNat_eq h)
      rw [unpack_subnormal s hpos]
      rfl
  · rw [unpack_normal s hzero h]
    rfl

/-- Finite forms are packed to numbers or, past the range of numbers, to infinities. -/
theorem isNaN_number_finite (s : Sign) (m : Nat) (e : Int) (h : 0 < m) :
    (number (.finite s m e h)).isNaN = false := by
  change (UnpackedFloat.unpack Format.binary64
    (UnpackedFloat.pack Format.binary64 (.finite s m e h))).isNaN = false
  simp only [UnpackedFloat.pack]
  generalize (e + Format.binary64.exponentBias + (52 : Nat)).toNat = field
  split
  · exact congrArg UnpackedFloat.isNaN (unpack_infinity s)
  · next hfield =>
    split
    · apply isNaN_unpack_packComponents
      intro hones
      have hvalue := congrArg BitVec.toNat hones
      rw [BitVec.toNat_ofNat] at hvalue
      change field % 2048 = 2047 at hvalue
      change ¬ 2048 ≤ field + 1 at hfield
      omega
    · exact isNaN_unpack_packComponents (by decide)

/-- A number is undefined if the form that it is packed from is, canonical or not. -/
theorem isNaN_number_eq (u : UnpackedFloat) : (number u).isNaN = u.isNaN := by
  cases u with
  | notANumber => exact isNaN_number .notANumber
  | infinity s => exact isNaN_number (.infinity s)
  | zero s => exact isNaN_number (.zero s)
  | finite s m e h => exact isNaN_number_finite s m e h

/-- Rounding gives a number. -/
theorem isNaN_roundWithAccuracy (s : Sign) (m : Nat) (e : Int) (accuracy : Accuracy) :
    (roundWithAccuracy Format.binary64 s m e accuracy).isNaN = false := by
  unfold roundWithAccuracy
  dsimp only
  split
  · rfl
  · rfl

section Finite

variable {m₁ m₂ : Nat} {e₁ e₂ : Int} (h₁ : 0 < m₁) (h₂ : 0 < m₂) (s₁ s₂ : Sign)

theorem isNaN_mul_finite :
    (UnpackedFloat.mul Format.binary64 (.finite s₁ m₁ e₁ h₁) (.finite s₂ m₂ e₂ h₂)).isNaN = false :=
  isNaN_roundWithAccuracy (s₁ * s₂) (m₁ * m₂) (e₁ + e₂) .exact

theorem isNaN_div_finite :
    (UnpackedFloat.div Format.binary64 (.finite s₁ m₁ e₁ h₁) (.finite s₂ m₂ e₂ h₂)).isNaN = false :=
  isNaN_roundWithAccuracy ..

end Finite

/-! ## Operations -/

section Operations

variable {u v : UnpackedFloat} {x y : Float}

theorem isInf_number (hu : Canonical u) : (number u).isInf = u.isInf := by
  have h : (number u).isInf = (number u).toModel.unpack.isInf := rfl
  rw [h, unpack_number hu]

/-- Zeros of both signs compare equal to zero, and nothing else does. -/
theorem beq_zero_iff (hu : Canonical u) : (number u == 0) = true ↔ ∃ s, u = .zero s := by
  have hzero : (0 : Float) = number (.zero .positive) := by decide
  have hbeq : (number u == number (.zero .positive)) =
      ((number u).toModel.unpack.compare (number (.zero .positive)).toModel.unpack == some .eq) :=
    rfl
  rw [hzero, hbeq, unpack_number hu, unpack_number (.zero .positive)]
  cases hu with
  | notANumber => simp [UnpackedFloat.compare]
  | infinity s => cases s <;> simp [UnpackedFloat.compare]
  | zero s => simp [UnpackedFloat.compare]
  | finite s h => cases s <;> simp [UnpackedFloat.compare]

/-- The undefined products: those with an undefined factor, and those of zero and an infinity. -/
theorem isNaN_mul_iff :
    (x * y).isNaN = true ↔ (x.isNaN = true ∨ y.isNaN = true) ∨
      ((x == 0) = true ∧ y.isInf = true ∨ x.isInf = true ∧ (y == 0) = true) := by
  obtain ⟨u, hu, rfl⟩ := exists_eq_number x
  obtain ⟨v, hv, rfl⟩ := exists_eq_number y
  rw [number_mul hu hv, isNaN_number_eq, isNaN_number_eq, isNaN_number_eq, isInf_number hu,
    isInf_number hv, beq_zero_iff hu, beq_zero_iff hv]
  -- only the product of two finite forms is rounded; all others are read off a table
  cases hu with
  | notANumber => simp [UnpackedFloat.mul, UnpackedFloat.isNaN]
  | infinity s => cases hv <;> simp [UnpackedFloat.mul, UnpackedFloat.isNaN, UnpackedFloat.isInf]
  | zero s => cases hv <;> simp [UnpackedFloat.mul, UnpackedFloat.isNaN, UnpackedFloat.isInf]
  | finite s h =>
    cases hv with
    | notANumber => simp [UnpackedFloat.mul, UnpackedFloat.isNaN]
    | infinity t => simp [UnpackedFloat.mul, UnpackedFloat.isNaN, UnpackedFloat.isInf]
    | zero t => simp [UnpackedFloat.mul, UnpackedFloat.isNaN, UnpackedFloat.isInf]
    | finite t h' =>
      rw [isNaN_mul_finite]
      simp [UnpackedFloat.isNaN, UnpackedFloat.isInf]

theorem isNaN_neg (x : Float) : (-x).isNaN = x.isNaN := by
  obtain ⟨u, hu, rfl⟩ := exists_eq_number x
  rw [number_neg hu, isNaN_number_eq, isNaN_number_eq]
  cases u <;> rfl

/-- Numbers that are not undefined compare. -/
theorem lt_iff_isNaN_eq_false (h : ¬ y ≤ x) : x < y ↔ x.isNaN = false ∧ y.isNaN = false := by
  constructor
  · exact isNaN_eq_false_of_lt
  · rintro ⟨hx, hy⟩
    rw [le_iff_exact_le hy hx, not_le] at h
    exact (lt_iff_exact_lt hx hy).2 h

end Operations

/-! ## Literals -/

section Literals

variable {digits : Nat}

/-- Core reads no decimal as an undefined number. -/
theorem isNaN_ofScientific (digits : Nat) (scale : Int) :
    (UnpackedFloat.ofScientific Format.binary64 digits scale).isNaN = false := by
  unfold UnpackedFloat.ofScientific
  split
  · rfl
  · split
    · rfl
    · split
      · rfl
      · split
        · exact isNaN_mul_finite ..
        · exact isNaN_div_finite ..

theorem isNaN_float_ofScientific (hpos : 0 < digits) (negative : Bool) (power : Nat) :
    (Float.ofScientific digits negative power).isNaN = false := by
  unfold Float.ofScientific
  split
  · next hsmall =>
    have hsize : power < Float.exactlyRepresentablePowersOfTen.size := Nat.lt_succ_of_le hsmall.2
    obtain ⟨m₁, e₁, h₁, -, -, hnumber₁⟩ := exists_toFloat_eq hpos hsmall.1
    obtain ⟨m₂, e₂, h₂, -, -, hnumber₂⟩ := exists_power_eq hsize
    dsimp only
    rw [hnumber₁, hnumber₂]
    split
    · rw [number_div (.finite _ h₁) (.finite _ h₂), isNaN_number_eq]
      exact isNaN_div_finite ..
    · rw [number_mul (.finite _ h₁) (.finite _ h₂), isNaN_number_eq]
      exact isNaN_mul_finite ..
  · exact (isNaN_number_eq _).trans (isNaN_ofScientific ..)

/-- A decimal is never read as an undefined number, however large or small it is. -/
theorem isNaN_decimalToFloat (digits : Nat) (scale : Int) :
    (Literal.decimalToFloat digits scale).isNaN = false := by
  rw [Literal.decimalToFloat]
  split
  · decide
  · next hne =>
    split
    · decide
    · split
      · decide
      · exact isNaN_float_ofScientific (Nat.pos_of_ne_zero hne) _ _

/-- The undefined literals are those that are written so. -/
theorem isNaN_toFloat_iff (l : Literal) : l.toFloat.isNaN = true ↔ l.magnitude = .undefined := by
  obtain ⟨negative, magnitude⟩ := l
  have hsign : (Literal.toFloat ⟨negative, magnitude⟩).isNaN =
      (Literal.toFloat ⟨false, magnitude⟩).isNaN := by
    cases negative with
    | false => rfl
    | true =>
      simp only [Literal.toFloat, if_true, Bool.false_eq_true, if_false]
      exact isNaN_neg _
  rw [hsign]
  simp only [Literal.toFloat, Bool.false_eq_true, if_false]
  cases magnitude with
  | decimal digits scale =>
    dsimp only
    rw [isNaN_decimalToFloat]
    exact iff_of_false Bool.false_ne_true (fun h => nomatch h)
  | infinity => exact iff_of_false (by decide) (fun h => nomatch h)
  | undefined => exact iff_of_true (by decide) rfl

end Literals

end PlotSheet.Binary
