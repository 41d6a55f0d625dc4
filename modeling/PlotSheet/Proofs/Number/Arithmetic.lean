import PlotSheet.Proofs.Number.Rounding

/-!
# Arithmetic

Operations on floating-point numbers are those on their forms. Products and quotients are rounded
from their exact values, and integers below a full mantissa are numbers themselves.

## Main results

* `mul_finite`, `div_finite`: products and quotients with their exact value in a rounding interval
* `isNaN_add`, `eq_one_of_beq`: undefined sums, and comparison with one
* `eq_number_of_ofFloat?`: the form of a number from its exact value
* `exists_toFloat_eq`, `exists_power_eq`: integers below a full mantissa, and small powers of ten
-/

namespace PlotSheet.Binary

open Float.Model Float.Model.UnpackedFloat
open Shortest (RoundingInterval)

variable {m : Nat} {e : Int}

/-- A number is in its own rounding interval. -/
theorem mem_around_self (h : IsCanonical m e) :
    (RoundingInterval.around m e).Mem (m * 2 ^ e) := by
  have hpos : (0 : Rat) < 2 ^ (e - 2) := by positivity
  have hvalue : (m : Rat) * 2 ^ e = ((4 * m : Nat) : Rat) * 2 ^ (e - 2) := by
    rw [← quarter_mul_four e]
    push_cast
    ring
  have hlower : (RoundingInterval.around m e).lower < 4 * m := by
    have := h.pos
    simp only [RoundingInterval.around]
    split <;> omega
  rw [hvalue]
  apply RoundingInterval.Mem.of_lt
  · exact mul_lt_mul_of_pos_right (by exact_mod_cast hlower) hpos
  · exact mul_lt_mul_of_pos_right (by exact_mod_cast Nat.lt_add_of_pos_right two_pos) hpos

/-- The dividend is scaled up so far that its quotient has at least the width of a full mantissa. -/
theorem le_log2_quotient {m₁ m₂ : Nat} (h₁ : 0 < m₁) (h₂ : 0 < m₂) {k : Nat}
    (hk : 53 + m₂.log2 ≤ m₁.log2 + k) :
    m₁.log2 + k ≤ (m₁ * 2 ^ k / m₂).log2 + m₂.log2 + 1 := by
  have hle : 2 ^ (m₁.log2 + k - m₂.log2 - 1) ≤ m₁ * 2 ^ k / m₂ := by
    rw [Nat.le_div_iff_mul_le h₂]
    calc 2 ^ (m₁.log2 + k - m₂.log2 - 1) * m₂
        ≤ 2 ^ (m₁.log2 + k - m₂.log2 - 1) * 2 ^ (m₂.log2 + 1) :=
          Nat.mul_le_mul_left _ Nat.lt_log2_self.le
      _ = 2 ^ m₁.log2 * 2 ^ k := by
          rw [← Nat.pow_add, ← Nat.pow_add]
          congr 1
          omega
      _ ≤ m₁ * 2 ^ k := Nat.mul_le_mul_right _ (Nat.log2_self_le h₁.ne')
  have hne : m₁ * 2 ^ k / m₂ ≠ 0 := (Nat.lt_of_lt_of_le (Nat.two_pow_pos _) hle).ne'
  have := (Nat.le_log2 hne).2 hle
  omega

/-- The dividend is scaled up by `k` places, which leaves the exponent `t`. -/
theorem exists_divCore (m₁ m₂ : Nat) (e₁ e₂ : Int) :
    ∃ (t : Int) (k : Nat),
      divCore Format.binary64 m₁ e₁ m₂ e₂ =
        (m₁ * 2 ^ k / m₂, t, accuracyOfFraction (m₁ * 2 ^ k % m₂) m₂) ∧
      (m₁ * 2 ^ e₁ / (m₂ * 2 ^ e₂) : Rat) / 2 ^ t = ((m₁ * 2 ^ k : Nat) : Rat) / m₂ ∧
      (53 + m₂.log2 ≤ m₁.log2 + k ∨ t ≤ leastExponent) := by
  generalize htarget : min (e₁ - e₂) (Format.binary64.targetExponent
    (totalExponent m₁ e₁ - totalExponent m₂ e₂)) = t
  have hmax : Format.binary64.targetExponent (totalExponent m₁ e₁ - totalExponent m₂ e₂) =
      max (m₁.log2 + 1 + e₁ - (m₂.log2 + 1 + e₂) - 53) leastExponent := rfl
  generalize hshift : (e₁ - e₂ - t).toNat = k
  have hexponent : e₁ - e₂ = t + k := by omega
  refine ⟨t, k, ?_, ?_, ?_⟩
  · simp only [divCore]
    rw [htarget, hshift, Nat.shiftLeft_eq]
  · have hpos : (0 : Rat) < 2 ^ t := by positivity
    rw [mul_div_mul_comm, ← zpow_sub₀ two_ne_zero, hexponent, zpow_add₀ two_ne_zero,
      div_eq_iff hpos.ne', zpow_natCast]
    push_cast
    ring
  · rw [hmax] at htarget
    omega

section Operations

variable {m₁ m₂ : Nat} {e₁ e₂ : Int} (h₁ : 0 < m₁) (h₂ : 0 < m₂) (s₁ s₂ : Sign)

/-- A product of two mantissas that is at least as wide as a full one is rounded from its exact
value. -/
theorem mul_finite (h : IsCanonical m e)
    (hx : (RoundingInterval.around m e).Mem ((m₁ * 2 ^ e₁) * (m₂ * 2 ^ e₂)))
    (hwide : fractionSize ≤ m₁ * m₂) :
    UnpackedFloat.mul Format.binary64 (.finite s₁ m₁ e₁ h₁) (.finite s₂ m₂ e₂ h₂) =
      .finite (s₁ * s₂) m e h.pos := by
  have hpos : (0 : Rat) < 2 ^ (e₁ + e₂) := by positivity
  have hexact : (m₁ * 2 ^ e₁ : Rat) * (m₂ * 2 ^ e₂) / 2 ^ (e₁ + e₂) = ((m₁ * m₂ : Nat) : Rat) := by
    rw [div_eq_iff hpos.ne', mul_mul_mul_comm, ← zpow_add₀ two_ne_zero, Nat.cast_mul]
  have hlog : 52 ≤ (m₁ * m₂).log2 := (Nat.le_log2 (Nat.mul_pos h₁ h₂).ne').2 hwide
  apply roundWithAccuracy_eq _ h hx
  · rw [hexact]
    exact standsFor_exact _
  · rw [targetExponent_eq]
    omega

/-- A quotient is rounded from its exact value. -/
theorem div_finite (h : IsCanonical m e)
    (hx : (RoundingInterval.around m e).Mem ((m₁ * 2 ^ e₁) / (m₂ * 2 ^ e₂))) :
    UnpackedFloat.div Format.binary64 (.finite s₁ m₁ e₁ h₁) (.finite s₂ m₂ e₂ h₂) =
      .finite (s₁ / s₂) m e h.pos := by
  obtain ⟨t, k, hcore, hscaled, hwide⟩ := exists_divCore m₁ m₂ e₁ e₂
  rw [UnpackedFloat.div]
  simp only [hcore]
  apply roundWithAccuracy_eq _ h hx
  · rw [hscaled]
    exact standsFor_quotient _ h₂
  · rw [targetExponent_eq]
    rcases hwide with hk | hleast
    · have := le_log2_quotient h₁ h₂ hk
      omega
    · omega

end Operations

/-! ## Operations on numbers -/

section Numbers

variable {u v : UnpackedFloat}

theorem number_mul (hu : Canonical u) (hv : Canonical v) :
    number u * number v = number (UnpackedFloat.mul Format.binary64 u v) := by
  have h : (number u * number v) = number (UnpackedFloat.mul Format.binary64
    (number u).toModel.unpack (number v).toModel.unpack) := rfl
  rw [h, unpack_number hu, unpack_number hv]

theorem number_div (hu : Canonical u) (hv : Canonical v) :
    number u / number v = number (UnpackedFloat.div Format.binary64 u v) := by
  have h : (number u / number v) = number (UnpackedFloat.div Format.binary64
    (number u).toModel.unpack (number v).toModel.unpack) := rfl
  rw [h, unpack_number hu, unpack_number hv]

theorem number_add (hu : Canonical u) (hv : Canonical v) :
    number u + number v = number (UnpackedFloat.add Format.binary64 u v) := by
  have h : (number u + number v) = number (UnpackedFloat.add Format.binary64
    (number u).toModel.unpack (number v).toModel.unpack) := rfl
  rw [h, unpack_number hu, unpack_number hv]

theorem number_neg (hu : Canonical u) : -number u = number u.neg := by
  have h : -number u = number (number u).toModel.unpack.neg := rfl
  rw [h, unpack_number hu]

theorem number_abs (hu : Canonical u) : (number u).abs = number u.abs := by
  have h : (number u).abs = number (number u).toModel.unpack.abs := rfl
  rw [h, unpack_number hu]

theorem canonical_abs (h : Canonical u) : Canonical u.abs := by
  cases h with
  | notANumber => exact .notANumber
  | infinity s => exact .infinity _
  | zero s => exact .zero _
  | finite s h => exact .finite _ h

theorem isNaN_number (hu : Canonical u) : (number u).isNaN = u.isNaN := by
  have h : (number u).isNaN = (number u).toModel.unpack.isNaN := rfl
  rw [h, unpack_number hu]

end Numbers

/-- A sum with an undefined summand is undefined. -/
theorem isNaN_add {x y : Float} (h : x.isNaN = true ∨ y.isNaN = true) : (x + y).isNaN = true := by
  obtain ⟨u, hu, rfl⟩ := exists_eq_number x
  obtain ⟨v, hv, rfl⟩ := exists_eq_number y
  rw [isNaN_number hu, isNaN_number hv] at h
  have hundefined : UnpackedFloat.add Format.binary64 u v = .notANumber := by
    rcases h with h | h
    · cases hu with
      | notANumber => rfl
      | infinity => cases h
      | zero => cases h
      | finite => cases h
    · cases hv with
      | notANumber => cases hu <;> rfl
      | infinity => cases h
      | zero => cases h
      | finite => cases h
  rw [number_add hu hv, hundefined, isNaN_number .notANumber]
  rfl

/-- One compares equal to no other number. -/
theorem eq_one_of_beq {x : Float} (h : (x == 1) = true) : x = 1 := by
  have hpositive : (1 : Float) ≠ 0 := by decide
  have hnegative : (1 : Float) ≠ -0 := by decide
  obtain ⟨-, -, heq | ⟨-, hone⟩ | ⟨-, hone⟩⟩ := Float.beq_iff_ne_nan_and_eq.1 h
  · exact heq
  · exact absurd hone hnegative
  · exact absurd hone hpositive

/-- The sign of a negative number, or of another one. -/
def signOf (negative : Bool) : Sign :=
  if negative then .negative else .positive

/-- The form of a number from its exact value. -/
theorem eq_number_of_ofFloat? {x : Float} {negative : Bool}
    (hx : ofFloat? x = some ⟨negative, m, e⟩) (hm : 0 < m) :
    ∃ h : IsCanonical m e, x = number (.finite (signOf negative) m e h.pos) := by
  obtain ⟨u, hu, rfl⟩ := exists_eq_number x
  cases hu with
  | notANumber =>
    have hnone : ofFloat? (number .notANumber) = none := rfl
    rw [hnone] at hx
    cases hx
  | infinity s =>
    rw [ofFloat?_number_infinity] at hx
    cases hx
  | zero s =>
    rw [ofFloat?_number_zero] at hx
    have heq := Option.some.inj hx
    injection heq with _ hzero
    exact absurd hzero hm.ne
  | finite s h =>
    rw [(ofFloat?_number_finite s h).1] at hx
    have heq := Option.some.inj hx
    injection heq with hs hm he
    subst hs hm he
    refine ⟨h, ?_⟩
    cases s <;> rfl

/-! ## Integers and powers of ten -/

/-- An integer below a full mantissa is a number. -/
theorem exists_toFloat_eq {n : Nat} (hpos : 0 < n) (hlt : n < 2 * fractionSize) :
    ∃ (m : Nat) (e : Int) (h : IsCanonical m e), fractionSize ≤ m ∧ (m * 2 ^ e : Rat) = n ∧
      n.toUInt64.toFloat = number (.finite .positive m e h.pos) := by
  have hlog : n.log2 ≤ 52 := by
    have hlt' : n < 2 ^ 53 := hlt
    exact Nat.lt_succ_iff.1 ((Nat.log2_lt hpos.ne').2 hlt')
  obtain ⟨k, hk⟩ : ∃ k, n.log2 + k = 52 := ⟨52 - n.log2, by omega⟩
  have hlow : fractionSize ≤ n * 2 ^ k := by
    calc fractionSize = 2 ^ n.log2 * 2 ^ k := by rw [← Nat.pow_add, hk]; rfl
      _ ≤ n * 2 ^ k := Nat.mul_le_mul_right _ (Nat.log2_self_le hpos.ne')
  have hhigh : n * 2 ^ k < 2 * fractionSize := by
    calc n * 2 ^ k < 2 ^ (n.log2 + 1) * 2 ^ k :=
          Nat.mul_lt_mul_of_pos_right Nat.lt_log2_self (Nat.two_pow_pos k)
      _ = 2 * fractionSize := by
          rw [← Nat.pow_add, Nat.add_right_comm, hk]
          rfl
  have h : IsCanonical (n * 2 ^ k) (-k) := by
    refine ⟨Nat.lt_of_lt_of_le (by decide) hlow, hhigh, ?_, by omega, .inl hlow⟩
    simp only [leastExponent]
    omega
  have hvalue : (((n * 2 ^ k : Nat) : Rat) * 2 ^ (-(k : Int))) = n := by
    rw [Nat.cast_mul, mul_assoc, zpow_neg, zpow_natCast, Nat.cast_pow, Nat.cast_two,
      mul_inv_cancel₀ (by positivity), mul_one]
  refine ⟨n * 2 ^ k, -k, h, hlow, hvalue, congrArg number ?_⟩
  have hword : n.toUInt64.toNat = n := by
    have hsize : n < UInt64.size := Nat.lt_trans hlt (by decide)
    exact UInt64.toNat_ofNat_of_lt' hsize
  have htarget : Format.binary64.targetExponent (totalExponent n 0) = -k := by
    rw [targetExponent_eq]
    simp only [leastExponent]
    omega
  have hsign : compare (n : Int) 0 = .gt := Int.compare_eq_gt.2 (by omega)
  have hshift : (0 - -(k : Int)).toNat = k := by omega
  rw [UnpackedFloat.ofUInt64, UnpackedFloat.ofNat, UnpackedFloat.ofInt, hword,
    UnpackedFloat.normalize, hsign]
  dsimp only
  rw [Int.toNat_natCast, UnpackedFloat.round, htarget, decreaseExponent, hshift, Nat.shiftLeft_eq]
  dsimp only
  rw [Int.zero_sub]
  apply roundWithAccuracy_eq _ h (mem_around_self h)
  · have hpow : (2 : Rat) ^ (-(k : Int)) ≠ 0 := by positivity
    rw [mul_div_cancel_right₀ _ hpow]
    exact standsFor_exact _
  · rw [targetExponent_eq, log2_of_full hlow hhigh]
    omega

/-- The exact values of the table of powers of ten. -/
theorem ofFloat?_powers : ∀ k : Fin Float.exactlyRepresentablePowersOfTen.size,
    ∃ b ∈ ofFloat? Float.exactlyRepresentablePowersOfTen[k], b.negative = false ∧
      fractionSize ≤ b.mantissa ∧
      b.mantissa * 2 ^ b.exponent.toNat = 10 ^ k.val * 2 ^ (-b.exponent).toNat := by
  decide

/-- The powers of ten up to the twenty-second are numbers. -/
theorem exists_power_eq {k : Nat} (hk : k < Float.exactlyRepresentablePowersOfTen.size) :
    ∃ (m : Nat) (e : Int) (h : IsCanonical m e), fractionSize ≤ m ∧ (m * 2 ^ e : Rat) = 10 ^ k ∧
      Float.exactlyRepresentablePowersOfTen[k] = number (.finite .positive m e h.pos) := by
  obtain ⟨⟨negative, m, e⟩, hb, rfl, hfull, hvalue⟩ := ofFloat?_powers ⟨k, hk⟩
  obtain ⟨h, hnumber⟩ := eq_number_of_ofFloat? hb (Nat.lt_of_lt_of_le (by decide) hfull)
  refine ⟨m, e, h, hfull, ?_, hnumber⟩
  have hpow : (2 : Rat) ^ (-e).toNat ≠ 0 := by positivity
  rw [← mul_left_inj' hpow, mul_assoc, Shortest.zpow_mul_pow_toNat two_ne_zero]
  exact_mod_cast hvalue

end PlotSheet.Binary
