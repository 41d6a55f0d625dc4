import PlotSheet.Number.Scalar
import PlotSheet.Proofs.Number.Arithmetic

/-!
# The value of a literal

A decimal literal is read by one division or multiplication of exact numbers if its digits and its
power of ten are small, and by a division or multiplication of long mantissas if they are not.
Either way the result is rounded from the exact value, so that every decimal in the rounding interval
of a number is read to that number.

## Main results

* `ofScientific_of_small`, `ofScientific_of_mem`: the two ways of reading a decimal
* `decimalToFloat_eq`: decimals in the rounding interval of a number
* `toFloat_decimal`: signed decimals
-/

namespace PlotSheet.Binary

open Float.Model Float.Model.UnpackedFloat
open Shortest (RoundingInterval)

variable {m : Nat} {e : Int}

/-! ## The range of finite numbers -/

theorem lt_of_mem (h : IsCanonical m e) {x : Rat} (hx : (RoundingInterval.around m e).Mem x) :
    x < 2 ^ (1024 : Int) := by
  have hpos : (0 : Rat) < 2 ^ e := by positivity
  have hlt : (m : Rat) + 1 ≤ 2 ^ (53 : Int) := by exact_mod_cast h.lt
  have hgreatest := h.greatest
  calc x ≤ ((m : Rat) + 1 / 2) * 2 ^ e := (mem_around_bounds h hx).2.1
    _ < 2 ^ (53 : Int) * 2 ^ e := mul_lt_mul_of_pos_right (by linarith) hpos
    _ = 2 ^ (53 + e) := (zpow_add₀ two_ne_zero _ _).symm
    _ ≤ 2 ^ (1024 : Int) := zpow_le_zpow_right₀ one_le_two (by omega)

theorem le_of_mem (h : IsCanonical m e) {x : Rat} (hx : (RoundingInterval.around m e).Mem x) :
    2 ^ (-1075 : Int) ≤ x := by
  have hpos : (0 : Rat) < 2 ^ e := by positivity
  have hone : (1 : Rat) ≤ m := by exact_mod_cast h.pos
  have hleast := h.least
  simp only [leastExponent] at hleast
  calc (2 : Rat) ^ (-1075 : Int) ≤ 2 ^ (-1 + e) := zpow_le_zpow_right₀ one_le_two (by omega)
    _ = 2 ^ (-1 : Int) * 2 ^ e := zpow_add₀ two_ne_zero _ _
    _ ≤ ((m : Rat) - 1 / 2) * 2 ^ e := by
        refine mul_le_mul_of_nonneg_right ?_ hpos.le
        rw [zpow_neg_one]
        linarith
    _ ≤ x := (mem_around_bounds h hx).1

variable {digits : Nat} {scale : Int}

/-- A number with `n + 1` digits lies between two powers of ten. -/
theorem pow_length_bounds (hpos : 0 < digits) {n : Nat}
    (hn : (Nat.toDigits 10 digits).length = n + 1) :
    10 ^ n ≤ digits ∧ digits < 10 ^ (n + 1) := by
  have hupper := (Nat.length_toDigits_le_iff (by decide) (Nat.succ_pos n)).1 hn.le
  refine ⟨?_, hupper⟩
  by_contra hlt
  cases n with
  | zero => exact hlt hpos
  | succ n =>
    have := (Nat.length_toDigits_le_iff (by decide) (Nat.succ_pos n)).2 (Nat.lt_of_not_le hlt)
    omega

theorem length_le_log2 (hpos : 0 < digits) :
    (Nat.toDigits 10 digits).length ≤ digits.log2 + 1 := by
  obtain ⟨n, hn⟩ : ∃ n, (Nat.toDigits 10 digits).length = n + 1 :=
    ⟨_, (Nat.succ_pred Nat.length_toDigits_pos.ne').symm⟩
  have hpow : 2 ^ n ≤ digits :=
    (Nat.pow_le_pow_left (by decide) n).trans (pow_length_bounds hpos hn).1
  have := (Nat.le_log2 hpos.ne').2 hpow
  omega

/-- Powers of two and of ten by their exponents. -/
theorem two_zpow_le_ten_zpow {j k : Nat} (h : 28 * j ≤ 93 * k) :
    (2 : Rat) ^ (j : Int) ≤ 10 ^ (k : Int) := by
  rw [zpow_natCast, zpow_natCast]
  exact_mod_cast Shortest.two_pow_le_ten_pow h

/-- The leading digit of a decimal in the range of finite numbers is not too far from the point. -/
theorem length_bounds (h : IsCanonical m e) (hpos : 0 < digits)
    (hx : (RoundingInterval.around m e).Mem (digits * (10 : Rat) ^ scale)) :
    (Nat.toDigits 10 digits).length + scale ≤ Literal.decimalRange ∧
      -Literal.decimalRange ≤ (Nat.toDigits 10 digits).length + scale := by
  simp only [Literal.decimalRange]
  obtain ⟨n, hn⟩ : ∃ n, (Nat.toDigits 10 digits).length = n + 1 :=
    ⟨_, (Nat.succ_pred Nat.length_toDigits_pos.ne').symm⟩
  obtain ⟨hlo, hhi⟩ := pow_length_bounds hpos hn
  have hten : ∀ k : Int, (0 : Rat) < 10 ^ k := fun k => by positivity
  have hadd : ∀ k : Nat, (10 : Rat) ^ (k + scale) = ((10 ^ k : Nat) : Rat) * 10 ^ scale := by
    intro k
    rw [zpow_add₀ (by norm_num), zpow_natCast, Nat.cast_pow, Nat.cast_ofNat]
  constructor
  · by_contra hlt
    have hpow : (2 : Rat) ^ (1024 : Int) ≤ 10 ^ (400 : Int) := two_zpow_le_ten_zpow (by decide)
    have hbelow : (10 : Rat) ^ (400 : Int) ≤ digits * 10 ^ scale := by
      calc (10 : Rat) ^ (400 : Int) ≤ 10 ^ (n + scale) :=
            zpow_le_zpow_right₀ (by norm_num) (by omega)
        _ = ((10 ^ n : Nat) : Rat) * 10 ^ scale := hadd n
        _ ≤ digits * 10 ^ scale :=
            mul_le_mul_of_nonneg_right (Nat.cast_le.2 hlo) (hten scale).le
    exact absurd (lt_of_mem h hx) (not_lt.2 (hpow.trans hbelow))
  · by_contra hlt
    have hpow : (2 : Rat) ^ (1075 : Int) ≤ 10 ^ (400 : Int) := two_zpow_le_ten_zpow (by decide)
    have habove : digits * (10 : Rat) ^ scale < 10 ^ (-400 : Int) := by
      calc digits * (10 : Rat) ^ scale < ((10 ^ (n + 1) : Nat) : Rat) * 10 ^ scale :=
            mul_lt_mul_of_pos_right (Nat.cast_lt.2 hhi) (hten scale)
        _ = 10 ^ (((n + 1 : Nat) : Int) + scale) := (hadd (n + 1)).symm
        _ ≤ 10 ^ (-400 : Int) := zpow_le_zpow_right₀ (by norm_num) (by omega)
    refine absurd (le_of_mem h hx) (not_le.2 (habove.trans_le ?_))
    rw [zpow_neg, zpow_neg]
    exact inv_anti₀ (by positivity) hpow

/-! ## Reading decimals -/

theorem mul_ten_zpow_of_neg (h : scale < 0) :
    (digits : Rat) * 10 ^ scale = digits / 10 ^ scale.natAbs := by
  have hscale : scale = -(scale.natAbs : Int) := by omega
  rw [div_eq_mul_inv, ← zpow_natCast, ← zpow_neg, ← hscale]

theorem mul_ten_zpow_of_not_neg (h : ¬ scale < 0) :
    (digits : Rat) * 10 ^ scale = digits * 10 ^ scale.natAbs := by
  have hscale : (scale.natAbs : Int) = scale := by omega
  rw [← zpow_natCast, hscale]

/-- Small digits and a small power of ten are numbers, and are divided or multiplied. -/
theorem ofScientific_of_small (h : IsCanonical m e) (hpos : 0 < digits)
    (hx : (RoundingInterval.around m e).Mem (digits * (10 : Rat) ^ scale))
    (hsmall : digits < 2 ^ 53 ∧ scale.natAbs ≤ 22) :
    Float.ofScientific digits (decide (scale < 0)) scale.natAbs =
      number (.finite .positive m e h.pos) := by
  have hsize : scale.natAbs < Float.exactlyRepresentablePowersOfTen.size :=
    Nat.lt_succ_of_le hsmall.2
  obtain ⟨m₁, e₁, h₁, hfull₁, hvalue₁, hnumber₁⟩ := exists_toFloat_eq hpos hsmall.1
  obtain ⟨m₂, e₂, h₂, hfull₂, hvalue₂, hnumber₂⟩ := exists_power_eq hsize
  rw [Float.ofScientific, dif_pos hsmall]
  dsimp only
  rw [hnumber₁, hnumber₂]
  by_cases hneg : scale < 0
  · rw [mul_ten_zpow_of_neg hneg, ← hvalue₁, ← hvalue₂] at hx
    rw [if_pos (decide_eq_true hneg), number_div (.finite _ h₁) (.finite _ h₂),
      div_finite h₁.pos h₂.pos .positive .positive h hx]
    rfl
  · rw [mul_ten_zpow_of_not_neg hneg, ← hvalue₁, ← hvalue₂] at hx
    have hwide : fractionSize ≤ m₁ * m₂ :=
      hfull₁.trans (Nat.le_mul_of_pos_right m₁ h₂.pos)
    rw [if_neg (by simpa using hneg), number_mul (.finite _ h₁) (.finite _ h₂),
      mul_finite h₁.pos h₂.pos .positive .positive h hx hwide]
    rfl

/-- Other decimals are read with mantissas of any length. -/
theorem ofScientific_of_mem (h : IsCanonical m e) (hpos : 0 < digits)
    (hx : (RoundingInterval.around m e).Mem (digits * (10 : Rat) ^ scale)) :
    UnpackedFloat.ofScientific Format.binary64 digits scale = .finite .positive m e h.pos := by
  obtain ⟨hhigh, hlow⟩ := length_bounds h hpos hx
  have hlog := length_le_log2 hpos
  simp only [Literal.decimalRange] at hhigh hlow
  -- core's own shortcuts for very large and very small decimals do not apply
  have hhuge : ¬ scale > 2 ^ 11 := by
    have := Nat.length_toDigits_pos (b := 10) (n := digits)
    omega
  have htiny : ¬ scale < -((2 ^ 11 : Int) + digits.log2) := by omega
  rw [UnpackedFloat.ofScientific, dif_neg hpos.ne', if_neg hhuge, if_neg htiny]
  by_cases hneg : scale < 0
  · have habs : (-scale).toNat = scale.natAbs := by omega
    have hvalue : (digits : Rat) * 10 ^ scale =
        (digits * 2 ^ (0 : Int)) / ((10 ^ (-scale).toNat : Nat) * 2 ^ (0 : Int)) := by
      rw [mul_ten_zpow_of_neg hneg, habs, zpow_zero, mul_one, mul_one, Nat.cast_pow,
        Nat.cast_ofNat]
    rw [hvalue] at hx
    rw [if_neg (not_le.2 hneg)]
    exact div_finite hpos _ .positive .positive h hx
  · have habs : scale.toNat = scale.natAbs := by omega
    have hshift : digits <<< Format.binary64.mantissaBits = digits * 2 ^ 53 := Nat.shiftLeft_eq ..
    have hvalue : (digits : Rat) * 10 ^ scale =
        ((digits <<< Format.binary64.mantissaBits : Nat) *
          2 ^ (-(Format.binary64.mantissaBits : Int))) *
        ((10 ^ scale.toNat : Nat) * 2 ^ (0 : Int)) := by
      have hbits : (Format.binary64.mantissaBits : Int) = (53 : Nat) := rfl
      rw [mul_ten_zpow_of_not_neg hneg, habs, hshift, hbits, zpow_zero, mul_one, zpow_neg,
        zpow_natCast, Nat.cast_mul, Nat.cast_pow, Nat.cast_pow, Nat.cast_ofNat, Nat.cast_ofNat,
        mul_assoc (digits : Rat), mul_inv_cancel₀ (by positivity), mul_one]
    have hwide : fractionSize ≤ digits <<< Format.binary64.mantissaBits * 10 ^ scale.toNat := by
      rw [hshift]
      calc fractionSize ≤ 1 * 2 ^ 53 * 1 := by decide
        _ ≤ digits * 2 ^ 53 * 10 ^ scale.toNat :=
            Nat.mul_le_mul (Nat.mul_le_mul_right _ hpos) (Nat.pow_pos (by decide))
    rw [hvalue] at hx
    rw [if_pos (not_lt.1 hneg)]
    exact mul_finite _ _ .positive .positive h hx hwide

/-- Every decimal in the rounding interval of a number is read to that number. -/
theorem decimalToFloat_eq (h : IsCanonical m e) (hpos : 0 < digits)
    (hx : (RoundingInterval.around m e).Mem (digits * (10 : Rat) ^ scale)) :
    Literal.decimalToFloat digits scale = number (.finite .positive m e h.pos) := by
  obtain ⟨hhigh, hlow⟩ := length_bounds h hpos hx
  rw [Literal.decimalToFloat, if_neg hpos.ne', if_neg (not_lt.2 hhigh), if_neg (not_lt.2 hlow)]
  by_cases hsmall : digits < 2 ^ 53 ∧ scale.natAbs ≤ 22
  · exact ofScientific_of_small h hpos hx hsmall
  · have hscale : (if decide (scale < 0) = true then Int.negOfNat scale.natAbs
        else Int.ofNat scale.natAbs) = scale := by
      split
      · next hneg =>
        have := of_decide_eq_true hneg
        rw [Int.negOfNat_eq, Int.ofNat_eq_natCast]
        omega
      · next hneg =>
        rw [decide_eq_true_eq] at hneg
        rw [Int.ofNat_eq_natCast]
        omega
    rw [Float.ofScientific, dif_neg hsmall]
    dsimp only
    rw [hscale]
    exact congrArg number (ofScientific_of_mem h hpos hx)

/-- A signed decimal in the rounding interval of a number is read to the signed number. -/
theorem toFloat_decimal (h : IsCanonical m e) (hpos : 0 < digits)
    (hx : (RoundingInterval.around m e).Mem (digits * (10 : Rat) ^ scale)) (negative : Bool) :
    (⟨negative, .decimal digits scale⟩ : Literal).toFloat =
      number (.finite (signOf negative) m e h.pos) := by
  rw [Literal.toFloat]
  dsimp only
  rw [decimalToFloat_eq h hpos hx]
  cases negative with
  | false => rfl
  | true => exact number_neg (.finite .positive h)

end PlotSheet.Binary
