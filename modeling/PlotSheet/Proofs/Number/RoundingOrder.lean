import PlotSheet.Proofs.Number.Order

/-!
# Rounding is monotone

A magnitude is cut at a place that depends on its size, and rounded to the nearest multiple of the
place. A larger magnitude is cut at the same place, where the nearest integer is no smaller, or at
a larger one, and then a power of two lies between the two results. What is rounded past all finite
numbers is packed as an infinity.

## Main definitions

* `IsNearest`: the nearest integer, the even one of two
* `IsPlace`: the place at which a magnitude is cut
* `IsRounded`, `Rounds`: what magnitudes and other values are rounded to
* `Sized`: the forms that rounding leads to, which may be too large for a number
* `clamp`: values cut off at the infinities

## Main results

* `Rounds.mono`: rounding is monotone
* `exists_roundWithAccuracy`: core rounds in this sense
* `exact_number_of_sized`: the value of a number packed from a rounded form
-/

namespace PlotSheet.Binary

open Float.Model Float.Model.UnpackedFloat

/-! ## Nearest integers -/

/-- The integer nearest to a magnitude, the even one of two. -/
structure IsNearest (r : Nat) (y : Rat) : Prop where
  lower : (r : Rat) - 1 / 2 ≤ y
  upper : y ≤ r + 1 / 2
  even : (y = r - 1 / 2 ∨ y = r + 1 / 2) → r % 2 = 0

theorem IsNearest.mono {r r' : Nat} {y y' : Rat} (h : IsNearest r y) (h' : IsNearest r' y')
    (hle : y ≤ y') : r ≤ r' := by
  by_contra hlt
  have hstep : (r' : Rat) + 1 ≤ r := by exact_mod_cast Nat.lt_of_not_le hlt
  have hlower := h.lower
  have hupper := h'.upper
  -- both are half way between the two integers, of which only one is even
  have heven := h.even (.inl (by linarith))
  have heven' := h'.even (.inr (by linarith))
  have hnext : r = r' + 1 := by
    have : (r : Rat) = r' + 1 := by linarith
    exact_mod_cast this
  omega

/-- A mantissa is rounded to the integer nearest to what it stands for. -/
theorem StandsFor.isNearest {em : ExtendedMantissa} {y : Rat} (h : StandsFor em y) :
    IsNearest em.roundedMantissa y := by
  have hle := h.le
  have hlt := h.lt
  obtain ⟨m, hm⟩ : ∃ m : Nat, IsNearest m y := by
    rcases lt_trichotomy y (em.mantissa + 1 / 2) with hhalf | hhalf | hhalf
    · refine ⟨em.mantissa, by linarith, by linarith, ?_⟩
      rintro (h | h)
      · linarith
      · linarith
    · refine ⟨em.mantissa + em.mantissa % 2, ?_, ?_, fun _ => by omega⟩
      · rcases Nat.mod_two_eq_zero_or_one em.mantissa with hparity | hparity
        · rw [hparity, Nat.add_zero]
          linarith
        · rw [hparity]
          push_cast
          linarith
      · push_cast
        have : (0 : Rat) ≤ (em.mantissa % 2 : Nat) := Nat.cast_nonneg _
        linarith
    · refine ⟨em.mantissa + 1, ?_, ?_, ?_⟩
      · push_cast
        linarith
      · push_cast
        linarith
      · push_cast
        rintro (h | h)
        · linarith
        · linarith
  rw [h.roundedMantissa_eq hm.lower hm.upper hm.even]
  exact hm

/-! ## Rounded magnitudes -/

/-- The place at which a magnitude is cut: the one of a full mantissa, or the least one. -/
structure IsPlace (t : Int) (x : Rat) : Prop where
  least : leastExponent ≤ t
  lt : x < 2 ^ (t + 53)
  full : t = leastExponent ∨ 2 ^ (t + 52) ≤ x

theorem IsPlace.mono {t t' : Int} {x x' : Rat} (h : IsPlace t x) (h' : IsPlace t' x')
    (hle : x ≤ x') : t ≤ t' := by
  by_contra hlt
  have hleast := h'.least
  have hfull : 2 ^ (t + 52) ≤ x := h.full.resolve_left (by omega)
  have hpower : (2 : Rat) ^ (t + 52) < 2 ^ (t' + 53) := (hfull.trans hle).trans_lt h'.lt
  have := (zpow_lt_zpow_iff_right₀ (by norm_num : (1 : Rat) < 2)).1 hpower
  omega

/-- What is rounded at a place has the width of a full mantissa, but for a carry. -/
theorem IsPlace.nearest_le {t : Int} {x : Rat} {r : Nat} (h : IsPlace t x)
    (hr : IsNearest r (x / 2 ^ t)) : r ≤ 2 * fractionSize := by
  have hpos : (0 : Rat) < 2 ^ t := by positivity
  have hlt : x / 2 ^ t < 2 ^ (53 : Int) := by
    rw [div_lt_iff₀ hpos, ← zpow_add₀ two_ne_zero, add_comm]
    exact h.lt
  have hcast : (r : Rat) < (2 * fractionSize + 1 : Nat) := by
    have hwidth : ((2 * fractionSize + 1 : Nat) : Rat) = 2 ^ (53 : Int) + 1 := by
      norm_num [fractionSize]
    have := hr.lower
    linarith
  exact Nat.lt_succ_iff.1 (by exact_mod_cast hcast)

/-- Above the least place, what is rounded is a full mantissa. -/
theorem IsPlace.le_nearest {t : Int} {x : Rat} {r : Nat} (h : IsPlace t x)
    (hr : IsNearest r (x / 2 ^ t)) (hne : t ≠ leastExponent) : fractionSize ≤ r := by
  have hpos : (0 : Rat) < 2 ^ t := by positivity
  have hle : (2 : Rat) ^ (52 : Int) ≤ x / 2 ^ t := by
    rw [le_div_iff₀ hpos, ← zpow_add₀ two_ne_zero, add_comm]
    exact h.full.resolve_left hne
  have hcast : ((fractionSize : Nat) : Rat) < r + 1 := by
    have hwidth : ((fractionSize : Nat) : Rat) = 2 ^ (52 : Int) := by norm_num [fractionSize]
    have := hr.upper
    linarith
  exact Nat.lt_succ_iff.1 (by exact_mod_cast hcast)

/-- The magnitude that a magnitude is rounded to. -/
def IsRounded (v x : Rat) : Prop :=
  ∃ (t : Int) (r : Nat), IsPlace t x ∧ IsNearest r (x / 2 ^ t) ∧ v = r * 2 ^ t

namespace IsRounded

variable {v v' x x' : Rat}

theorem nonneg (h : IsRounded v x) : 0 ≤ v := by
  obtain ⟨t, r, -, -, rfl⟩ := h
  positivity

theorem eq_zero (h : IsRounded v 0) : v = 0 := by
  obtain ⟨t, r, -, hr, rfl⟩ := h
  have hlower := hr.lower
  rw [zero_div] at hlower
  have hlt : (r : Rat) < 1 := by linarith
  obtain rfl : r = 0 := Nat.lt_one_iff.1 (by exact_mod_cast hlt)
  rw [Nat.cast_zero, zero_mul]

theorem mono (h : IsRounded v x) (h' : IsRounded v' x') (hle : x ≤ x') : v ≤ v' := by
  obtain ⟨t, r, ht, hr, rfl⟩ := h
  obtain ⟨t', r', ht', hr', rfl⟩ := h'
  have hpos : (0 : Rat) < 2 ^ t := by positivity
  have hpos' : (0 : Rat) < 2 ^ t' := by positivity
  rcases (ht.mono ht' hle).eq_or_lt with rfl | hlt
  · have hmono := hr.mono hr' ((div_le_div_iff_of_pos_right hpos).2 hle)
    exact mul_le_mul_of_nonneg_right (Nat.cast_le.2 hmono) hpos.le
  · have hwide : (r : Rat) ≤ 2 ^ (53 : Int) := by exact_mod_cast ht.nearest_le hr
    have hfull : (2 : Rat) ^ (52 : Int) ≤ r' := by
      exact_mod_cast ht'.le_nearest hr' (ht.least.trans_lt hlt).ne'
    calc (r : Rat) * 2 ^ t ≤ 2 ^ (53 : Int) * 2 ^ t := mul_le_mul_of_nonneg_right hwide hpos.le
      _ = 2 ^ (53 + t) := (zpow_add₀ two_ne_zero _ _).symm
      _ ≤ 2 ^ (52 + t') := zpow_le_zpow_right₀ one_le_two (by omega)
      _ = 2 ^ (52 : Int) * 2 ^ t' := zpow_add₀ two_ne_zero _ _
      _ ≤ r' * 2 ^ t' := mul_le_mul_of_nonneg_right hfull hpos'.le

end IsRounded

/-- The value that a value is rounded to: its magnitude is rounded. -/
def Rounds (v x : Rat) : Prop :=
  ∃ s y w, x = signed s y ∧ v = signed s w ∧ 0 ≤ y ∧ IsRounded w y

theorem signed_zero (s : Sign) : signed s 0 = 0 := by
  cases s with
  | positive => rfl
  | negative => exact neg_zero

/-- **Rounding is monotone.** -/
theorem Rounds.mono {v v' x x' : Rat} (h : Rounds v x) (h' : Rounds v' x') (hle : x ≤ x') :
    v ≤ v' := by
  obtain ⟨s, y, w, rfl, rfl, hy, hw⟩ := h
  obtain ⟨s', y', w', rfl, rfl, hy', hw'⟩ := h'
  have hnonneg := hw.nonneg
  have hnonneg' := hw'.nonneg
  cases s with
  | positive =>
    cases s' with
    | positive => exact hw.mono hw' hle
    | negative =>
      simp only [signed] at hle ⊢
      obtain rfl : y = 0 := by linarith
      obtain rfl : y' = 0 := by linarith
      rw [hw.eq_zero, hw'.eq_zero, neg_zero]
  | negative =>
    simp only [signed] at hle ⊢
    cases s' with
    | positive => linarith
    | negative => exact neg_le_neg (hw'.mono hw (neg_le_neg_iff.1 hle))

/-! ## The rounding of core -/

/-- The forms that rounding leads to, which may be too large for a number. -/
inductive Sized : UnpackedFloat → Prop
  | zero (s : Sign) : Sized (.zero s)
  | finite (s : Sign) {m : Nat} {e : Int} (hpos : 0 < m) (hlt : m < 2 * fractionSize)
      (hleast : leastExponent ≤ e) (hfull : fractionSize ≤ m ∨ e = leastExponent) :
      Sized (.finite s m e hpos)

section Round

variable {x : Rat} {mantissa : Nat} {exponent : Int} {a : Accuracy}

/-- A mantissa that stands for a magnitude is cut at the place of the magnitude. -/
theorem StandsFor.isPlace
    (h : StandsFor (.ofMantissaAndAccuracy mantissa a) (x / 2 ^ exponent)) (hne : mantissa ≠ 0) :
    IsPlace (Format.binary64.targetExponent (totalExponent mantissa exponent)) x := by
  have hlt := h.lt_two_zpow
  have hle := h.two_zpow_le hne
  rw [targetExponent_eq]
  refine ⟨le_max_right _ _, hlt.trans_le (zpow_le_zpow_right₀ one_le_two (by omega)), ?_⟩
  by_cases hleast : mantissa.log2 + 1 + exponent - 53 ≤ leastExponent
  · exact .inl (max_eq_right hleast)
  · refine .inr (le_trans (zpow_le_zpow_right₀ one_le_two ?_) hle)
    omega

/-- A rounded mantissa is cut once more if it was carried to one more bit. -/
theorem exists_finish (s : Sign) {t : Int} {r : Nat} (hleast : leastExponent ≤ t)
    (hwide : r ≤ 2 * fractionSize) (hfull : t ≠ leastExponent → fractionSize ≤ r)
    {em : ExtendedMantissa} (hem : em.roundedMantissa = r)
    (hfirst : shiftToTargetExponent Format.binary64 mantissa exponent a = (em, t)) :
    value (roundWithAccuracy Format.binary64 s mantissa exponent a) = signed s (r * 2 ^ t) ∧
      Sized (roundWithAccuracy Format.binary64 s mantissa exponent a) := by
  rcases hwide.eq_or_lt with rfl | hlt
  · have hcarry := shiftToTargetExponent_carry (e := t + 1) (by omega)
    rw [add_sub_cancel_right] at hcarry
    rw [roundWithAccuracy_of_shifts s hfirst hem hcarry rfl (by decide)]
    refine ⟨congrArg (signed s) ?_, .finite s (by decide) (by decide) (by omega) (.inl le_rfl)⟩
    rw [zpow_add_one₀ two_ne_zero]
    push_cast
    ring
  · have htarget : Format.binary64.targetExponent (totalExponent r t) ≤ t := by
      have hlog : r.log2 < 53 := by
        by_cases hzero : r = 0
        · rw [hzero, Nat.log2_zero]
          decide
        · exact (Nat.log2_lt hzero).2 hlt
      rw [targetExponent_eq]
      omega
    have hsecond := shiftToTargetExponent_of_le htarget .exact
    by_cases hzero : r = 0
    · subst hzero
      have hround : roundWithAccuracy Format.binary64 s mantissa exponent a = .zero s := by
        rw [roundWithAccuracy, hfirst]
        dsimp only
        rw [hem, hsecond]
        exact dif_pos rfl
      rw [hround, Nat.cast_zero, zero_mul, signed_zero]
      exact ⟨rfl, .zero s⟩
    · have hpos : 0 < r := Nat.pos_of_ne_zero hzero
      rw [roundWithAccuracy_of_shifts s hfirst hem hsecond rfl hpos]
      refine ⟨rfl, .finite s hpos hlt hleast ?_⟩
      by_cases hplace : t = leastExponent
      · exact .inr hplace
      · exact .inl (hfull hplace)

/-- What stands for a magnitude is rounded at its place. -/
theorem exists_roundWithAccuracy_of_isPlace (s : Sign)
    (hstands : StandsFor (.ofMantissaAndAccuracy mantissa a) (x / 2 ^ exponent))
    (hle : exponent ≤ Format.binary64.targetExponent (totalExponent mantissa exponent))
    (hplace : IsPlace (Format.binary64.targetExponent (totalExponent mantissa exponent)) x) :
    ∃ v, IsRounded v x ∧
      value (roundWithAccuracy Format.binary64 s mantissa exponent a) = signed s v ∧
      Sized (roundWithAccuracy Format.binary64 s mantissa exponent a) := by
  obtain ⟨em, hfirst, hem⟩ := hstands.shiftToTargetExponent rfl hle
  have hr := hem.isNearest
  exact ⟨_, ⟨_, _, hplace, hr, rfl⟩,
    exists_finish s hplace.least (hplace.nearest_le hr) (hplace.le_nearest hr) rfl hfirst⟩

/-- **Core rounds magnitudes to nearest.** -/
theorem exists_roundWithAccuracy (s : Sign) (hne : mantissa ≠ 0)
    (hstands : StandsFor (.ofMantissaAndAccuracy mantissa a) (x / 2 ^ exponent))
    (hle : exponent ≤ Format.binary64.targetExponent (totalExponent mantissa exponent)) :
    ∃ v, IsRounded v x ∧
      value (roundWithAccuracy Format.binary64 s mantissa exponent a) = signed s v ∧
      Sized (roundWithAccuracy Format.binary64 s mantissa exponent a) :=
  exists_roundWithAccuracy_of_isPlace s hstands hle (hstands.isPlace hne)

/-- Below the least place nothing is left of a mantissa but its accuracy. -/
theorem exists_roundWithAccuracy_zero (s : Sign)
    (hstands : StandsFor (.ofMantissaAndAccuracy 0 a) (x / 2 ^ exponent))
    (hleast : exponent ≤ leastExponent) :
    ∃ v, IsRounded v x ∧
      value (roundWithAccuracy Format.binary64 s 0 exponent a) = signed s v ∧
      Sized (roundWithAccuracy Format.binary64 s 0 exponent a) := by
  have htarget : Format.binary64.targetExponent (totalExponent 0 exponent) = leastExponent := by
    rw [targetExponent_eq, Nat.log2_zero]
    omega
  have hlt := hstands.lt_two_zpow
  rw [Nat.log2_zero] at hlt
  apply exists_roundWithAccuracy_of_isPlace s hstands
  · rw [htarget]
    exact hleast
  · rw [htarget]
    exact ⟨le_rfl, hlt.trans_le (zpow_le_zpow_right₀ one_le_two (by omega)), .inl rfl⟩

end Round

/-! ## Packing -/

/-- A value cut off at the infinities. -/
def clamp (x : Rat) : Rat :=
  max (-overflow) (min x overflow)

theorem clamp_mono {x y : Rat} (h : x ≤ y) : clamp x ≤ clamp y :=
  max_le_max le_rfl (min_le_min h le_rfl)

theorem clamp_of_lt {x : Rat} (hlo : -overflow < x) (hhi : x < overflow) : clamp x = x := by
  rw [clamp, min_eq_left hhi.le, max_eq_right hlo.le]

theorem pack_of_overflow (s : Sign) {m : Nat} {e : Int} (hpos : 0 < m) (he : 971 < e) :
    UnpackedFloat.pack Format.binary64 (.finite s m e hpos) =
      UnpackedFloat.pack Format.binary64 (.infinity s) := by
  have hbias : Format.binary64.exponentBias = 1023 := rfl
  have hlarge : 2 ^ 11 ≤ (e + Format.binary64.exponentBias + (52 : Nat)).toNat + 1 := by
    rw [hbias]
    omega
  exact if_pos hlarge

theorem overflow_le_value {m : Nat} {e : Int} (hfull : fractionSize ≤ m) (he : 971 < e) :
    overflow ≤ m * 2 ^ e := by
  have hwidth : (2 : Rat) ^ (52 : Int) ≤ m := by exact_mod_cast hfull
  calc overflow ≤ 2 ^ (52 + e) := zpow_le_zpow_right₀ one_le_two (by omega)
    _ = 2 ^ (52 : Int) * 2 ^ e := zpow_add₀ two_ne_zero _ _
    _ ≤ m * 2 ^ e := mul_le_mul_of_nonneg_right hwidth (by positivity)

theorem clamp_signed_of_overflow_le (s : Sign) {x : Rat} (h : overflow ≤ x) :
    clamp (signed s x) = signed s overflow := by
  have hpos := overflow_pos
  cases s with
  | positive =>
    change max (-overflow) (min x overflow) = overflow
    rw [min_eq_right h, max_eq_right (by linarith)]
  | negative =>
    change max (-overflow) (min (-x) overflow) = -overflow
    rw [min_eq_left (by linarith), max_eq_left (by linarith)]

/-- **A rounded form is packed to the number with its value**, or to an infinity. -/
theorem exact_number_of_sized {u : UnpackedFloat} (h : Sized u) :
    exact (number u) = clamp (value u) ∧ (number u).isNaN = false := by
  have hoverflow := overflow_pos
  cases h with
  | zero s =>
    rw [exact_number (.zero s), isNaN_number (.zero s)]
    exact ⟨(clamp_of_lt (by simpa [value] using hoverflow) (by simpa [value] using hoverflow)).symm,
      rfl⟩
  | @finite s m e hpos hlt hleast hfull =>
    by_cases he : e ≤ 971
    · have h : IsCanonical m e := ⟨hpos, hlt, hleast, he, hfull⟩
      have hvalue := h.value_pos
      have hbound := h.value_lt_overflow
      rw [exact_number (.finite s h), isNaN_number (.finite s h)]
      refine ⟨(clamp_of_lt ?_ ?_).symm, rfl⟩
      all_goals
        cases s
        all_goals
          simp only [value, signed]
          linarith
    · have hmantissa : fractionSize ≤ m := hfull.resolve_right fun h => he (by rw [h]; decide)
      have hlarge : 971 < e := by omega
      have hnumber : number (.finite s m e hpos) = number (.infinity s) := by
        simp only [number, Float.Model.pack, pack_of_overflow s hpos hlarge]
      rw [hnumber, exact_number (.infinity s), isNaN_number (.infinity s)]
      exact ⟨(clamp_signed_of_overflow_le s (overflow_le_value hmantissa hlarge)).symm, rfl⟩

end PlotSheet.Binary
