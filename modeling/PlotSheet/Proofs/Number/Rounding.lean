import PlotSheet.Proofs.Number.RoundingInterval

/-!
# Rounding to nearest

Core rounds by cutting a mantissa to its width and keeping two bits about what was cut off. The two
bits tell the cut-off part from nothing and from a half, and that is enough: a real number in the
rounding interval of a finite number is rounded to it.

## Main definitions

* `StandsFor`: a mantissa with its two bits stands for a real number

## Main results

* `StandsFor.shiftRight`, `StandsFor.roundedMantissa_eq`: cutting and rounding a mantissa
* `roundWithAccuracy_eq`: the real numbers of a rounding interval are rounded to its number
-/

namespace PlotSheet.Binary

open Float.Model Float.Model.UnpackedFloat

/-! ## Mantissas with two bits -/

/-- The mantissa is the integral part of a number; the first bit tells whether at least a half was
cut off, the second whether something else than nothing or a half was. -/
structure StandsFor (em : ExtendedMantissa) (y : Rat) : Prop where
  le : (em.mantissa : Rat) ≤ y
  lt : y < em.mantissa + 1
  roundBit_iff : em.roundBit = true ↔ em.mantissa + 1 / 2 ≤ y
  stickyBit_iff : em.stickyBit = true ↔ y ≠ em.mantissa ∧ y ≠ em.mantissa + 1 / 2

theorem standsFor_exact (m : Nat) :
    StandsFor (.ofMantissaAndAccuracy m .exact) m where
  le := le_refl _
  lt := lt_add_one _
  roundBit_iff := by simp [ExtendedMantissa.ofMantissaAndAccuracy]
  stickyBit_iff := by simp [ExtendedMantissa.ofMantissaAndAccuracy]

@[simp] theorem mantissa_ofMantissaAndAccuracy (m : Nat) (a : Accuracy) :
    (ExtendedMantissa.ofMantissaAndAccuracy m a).mantissa = m := by
  rcases a with _ | (_ | _ | _) <;> rfl

theorem roundBit_inexact_iff (m : Nat) (o : Ordering) :
    (ExtendedMantissa.ofMantissaAndAccuracy m (.inexact o)).roundBit = true ↔ o ≠ .lt := by
  cases o <;> simp [ExtendedMantissa.ofMantissaAndAccuracy]

theorem stickyBit_inexact_iff (m : Nat) (o : Ordering) :
    (ExtendedMantissa.ofMantissaAndAccuracy m (.inexact o)).stickyBit = true ↔ o ≠ .eq := by
  cases o <;> simp [ExtendedMantissa.ofMantissaAndAccuracy]

/-- The remainder of a division tells how its quotient stands for the fraction. -/
theorem standsFor_quotient (a : Nat) {b : Nat} (hb : 0 < b) :
    StandsFor (.ofMantissaAndAccuracy (a / b) (accuracyOfFraction (a % b) b)) (a / b) := by
  have hbpos : (0 : Rat) < b := by exact_mod_cast hb
  have hmod : ((a % b : Nat) : Rat) < b := by exact_mod_cast Nat.mod_lt a hb
  have hdiv : (a : Rat) / b = (a / b : Nat) + ((a % b : Nat) : Rat) / b := by
    rw [add_div' _ _ _ hbpos.ne', div_left_inj' hbpos.ne']
    exact_mod_cast (Nat.div_add_mod' a b).symm
  rw [hdiv]
  generalize a / b = m
  by_cases hzero : a % b = 0
  · rw [hzero, accuracyOfFraction, if_pos rfl, Nat.cast_zero, zero_div, add_zero]
    exact standsFor_exact m
  · have hpos : (0 : Rat) < (a % b : Nat) := by exact_mod_cast Nat.pos_of_ne_zero hzero
    rw [accuracyOfFraction, if_neg hzero]
    generalize a % b = r at *
    have hrest : (0 : Rat) < r / b := div_pos hpos hbpos
    have hone : (r : Rat) / b < 1 := (div_lt_one hbpos).2 hmod
    have hhalf : (1 : Rat) / 2 ≤ r / b ↔ b ≤ 2 * r := by
      rw [div_le_div_iff₀ two_pos hbpos, one_mul, mul_comm (r : Rat)]
      exact_mod_cast Iff.rfl
    have htie : (r : Rat) / b = 1 / 2 ↔ 2 * r = b := by
      rw [div_eq_div_iff hbpos.ne' two_ne_zero, one_mul, mul_comm (r : Rat)]
      exact_mod_cast Iff.rfl
    refine ⟨?_, ?_, ?_, ?_⟩
    · rw [mantissa_ofMantissaAndAccuracy]
      linarith
    · rw [mantissa_ofMantissaAndAccuracy]
      linarith
    · rw [roundBit_inexact_iff, mantissa_ofMantissaAndAccuracy, add_le_add_iff_left, hhalf,
        Ne, Nat.compare_eq_lt, Nat.not_lt]
    · rw [stickyBit_inexact_iff, mantissa_ofMantissaAndAccuracy, Ne, Ne, Ne, add_right_inj, htie,
        Nat.compare_eq_eq, add_eq_left]
      exact (and_iff_right hrest.ne').symm

namespace StandsFor

variable {em : ExtendedMantissa} {y : Rat}

/-- Something is cut off exactly if one of the two bits is set. -/
theorem bits_iff (h : StandsFor em y) :
    (em.roundBit || em.stickyBit) = true ↔ y ≠ em.mantissa := by
  rw [Bool.or_eq_true, h.roundBit_iff, h.stickyBit_iff]
  constructor
  · rintro (hround | hsticky)
    · intro heq
      linarith
    · exact hsticky.1
  · intro hne
    by_cases hhalf : y = em.mantissa + 1 / 2
    · exact .inl hhalf.ge
    · exact .inr ⟨hne, hhalf⟩

/-- Cutting off one more bit. -/
theorem shiftRightOne (h : StandsFor em y) : StandsFor em.shiftRightOne (y / 2) := by
  have hle := h.le
  have hlt := h.lt
  have hm : (em.mantissa : Rat) = 2 * (em.mantissa / 2 : Nat) + (em.mantissa % 2 : Nat) := by
    exact_mod_cast (Nat.div_add_mod em.mantissa 2).symm
  have hbit : (em.mantissa % 2 != 0) = true ↔ em.mantissa % 2 = 1 := by
    rw [bne_iff_ne]
    omega
  rcases Nat.mod_two_eq_zero_or_one em.mantissa with hparity | hparity
  all_goals
    rw [hparity] at hm
    push_cast at hm
  · refine ⟨?_, ?_, ?_, ?_⟩ <;> simp only [ExtendedMantissa.shiftRightOne]
    · linarith
    · linarith
    · rw [hbit, hparity]
      exact iff_of_false (by decide) fun h => by linarith
    · rw [h.bits_iff]
      constructor
      · intro hne
        exact ⟨fun h => hne (by linarith), fun h => by linarith⟩
      · intro hne heq
        exact hne.1 (by linarith)
  · refine ⟨?_, ?_, ?_, ?_⟩ <;> simp only [ExtendedMantissa.shiftRightOne]
    · linarith
    · linarith
    · rw [hbit, hparity]
      exact iff_of_true rfl (by linarith)
    · rw [h.bits_iff]
      constructor
      · intro hne
        exact ⟨fun h => by linarith, fun h => hne (by linarith)⟩
      · intro hne heq
        exact hne.2 (by linarith)

/-- Cutting off several bits. -/
theorem shiftRight (h : StandsFor em y) (n : Nat) : StandsFor (em >>> n) (y / 2 ^ n) := by
  induction n with
  | zero =>
    rw [pow_zero, div_one]
    exact h
  | succ n ih =>
    have hhalf : y / 2 ^ (n + 1) = y / 2 ^ n / 2 := by rw [pow_succ, div_div]
    rw [hhalf]
    exact ih.shiftRightOne

/-- The nearest integer is rounded to, and the even one of two. -/
theorem roundedMantissa_eq (h : StandsFor em y) {m : Nat} (hlo : (m : Rat) - 1 / 2 ≤ y)
    (hhi : y ≤ m + 1 / 2) (heven : (y = m - 1 / 2 ∨ y = m + 1 / 2) → m % 2 = 0) :
    em.roundedMantissa = m := by
  obtain ⟨k, roundBit, stickyBit⟩ := em
  obtain ⟨hle, hlt, hround, hsticky⟩ := h
  dsimp only at hle hlt hround hsticky
  have hkm : k ≤ m := by
    have : (k : Rat) < m + 1 := by linarith
    exact Nat.lt_succ_iff.1 (by exact_mod_cast this)
  have hmk : m ≤ k + 1 := by
    have : (m : Rat) < k + 2 := by linarith
    exact Nat.lt_succ_iff.1 (by exact_mod_cast this)
  -- `y` is within a half of `m` and cut to `k`, so `m` is `k` or the next integer
  have hcases : (m : Rat) = k ∧ m = k ∨ (m : Rat) = k + 1 ∧ m = k + 1 := by
    rcases Nat.le_iff_lt_or_eq.1 hkm with h | h
    · obtain rfl : m = k + 1 := by omega
      exact .inr ⟨by push_cast; rfl, rfl⟩
    · exact .inl ⟨by rw [h], h.symm⟩
  by_cases hhalf : (k : Rat) + 1 / 2 ≤ y
  · obtain rfl := hround.2 hhalf
    by_cases htie : y = k + 1 / 2
    · obtain rfl : stickyBit = false := by
        rw [← Bool.not_eq_true, hsticky]
        intro h
        exact h.2 htie
      change k + k % 2 = m
      rcases hcases with ⟨hm, rfl⟩ | ⟨hm, rfl⟩
      · have := heven (.inr htie)
        omega
      · have := heven (.inl (by linarith))
        omega
    · obtain rfl := hsticky.2 ⟨by linarith, htie⟩
      change k + 1 = m
      rcases hcases with ⟨hm, rfl⟩ | ⟨hm, rfl⟩
      · exact absurd (le_antisymm hhi hhalf) htie
      · rfl
  · obtain rfl : roundBit = false := by rwa [← Bool.not_eq_true, hround]
    have hk : k = m := by
      rcases hcases with ⟨hm, rfl⟩ | ⟨hm, rfl⟩
      · rfl
      · exact absurd (by linarith) hhalf
    cases stickyBit with
    | false => exact hk
    | true => exact hk

end StandsFor

/-! ## Numbers in a rounding interval -/

open Shortest (RoundingInterval)

section Interval

variable {m : Nat} {e : Int} {x : Rat}

theorem quarter_mul_four (e : Int) : (2 : Rat) ^ (e - 2) * 4 = 2 ^ e := by
  have hfour : (4 : Rat) = 2 ^ (2 : Int) := by norm_num
  rw [hfour, ← zpow_add₀ two_ne_zero, Int.sub_add_cancel]

/-- The interval of a number reaches at most half a unit to either side, with those ends only for an
even mantissa. -/
theorem mem_around_bounds (h : IsCanonical m e) (hx : (RoundingInterval.around m e).Mem x) :
    ((m : Rat) - 1 / 2) * 2 ^ e ≤ x ∧ x ≤ ((m : Rat) + 1 / 2) * 2 ^ e ∧
      ((x = (m - 1 / 2) * 2 ^ e ∨ x = (m + 1 / 2) * 2 ^ e) → m % 2 = 0) := by
  have hquarter := quarter_mul_four e
  have hpos : (0 : Rat) < 2 ^ (e - 2) := by positivity
  have hupper : ((RoundingInterval.around m e).upper : Rat) = 4 * m + 2 := by
    simp [RoundingInterval.around]
  have hlower : (4 : Rat) * m - 2 ≤ (RoundingInterval.around m e).lower := by
    have hm := h.pos
    have hnat : 4 * m ≤ (RoundingInterval.around m e).lower + 2 := by
      simp only [RoundingInterval.around]
      split <;> omega
    have hcast : ((4 * m : Nat) : Rat) ≤ ((RoundingInterval.around m e).lower + 2 : Nat) :=
      Nat.cast_le.2 hnat
    push_cast at hcast
    linarith
  have hmul := mul_le_mul_of_nonneg_right hlower hpos.le
  have hle : ((RoundingInterval.around m e).lower : Rat) * 2 ^ (e - 2) ≤ x ∧
      x ≤ (RoundingInterval.around m e).upper * 2 ^ (e - 2) := hx.le
  have hlt : m % 2 ≠ 0 → ((RoundingInterval.around m e).lower : Rat) * 2 ^ (e - 2) < x ∧
      x < (RoundingInterval.around m e).upper * 2 ^ (e - 2) := by
    intro hodd
    apply hx.lt
    simpa [RoundingInterval.around] using hodd
  rw [hupper] at hle hlt
  rw [← hquarter]
  generalize (2 : Rat) ^ (e - 2) = q at *
  refine ⟨by linarith, by linarith, fun htie => ?_⟩
  by_contra hodd
  obtain ⟨hlo, hhi⟩ := hlt hodd
  rcases htie with h | h
  · linarith
  · linarith

/-- Below a power of two the interval reaches only a quarter unit. -/
theorem mem_around_quarter (hm : m = fractionSize) (he : leastExponent < e)
    (hx : (RoundingInterval.around m e).Mem x) : ((m : Rat) - 1 / 4) * 2 ^ e ≤ x := by
  have hquarter := quarter_mul_four e
  have hlower : ((RoundingInterval.around m e).lower : Rat) = 4 * m - 1 := by
    have hnat : (RoundingInterval.around m e).lower = 4 * fractionSize - 1 := by
      rw [hm]
      exact if_pos ⟨rfl, he⟩
    rw [hnat, hm]
    norm_num [fractionSize]
  have hle : ((RoundingInterval.around m e).lower : Rat) * 2 ^ (e - 2) ≤ x := hx.le.1
  rw [hlower] at hle
  rw [← hquarter]
  linarith

end Interval

/-! ## The rounding of core -/

section Round

variable {m : Nat} {e : Int}

theorem targetExponent_eq (mantissa : Nat) (exponent : Int) :
    Format.binary64.targetExponent (totalExponent mantissa exponent) =
      max (mantissa.log2 + 1 + exponent - 53) leastExponent := rfl

/-- A mantissa of full width is not cut. -/
theorem shiftToTargetExponent_of_le {mantissa : Nat} {exponent : Int}
    (h : Format.binary64.targetExponent (totalExponent mantissa exponent) ≤ exponent)
    (a : Accuracy) :
    shiftToTargetExponent Format.binary64 mantissa exponent a =
      (.ofMantissaAndAccuracy mantissa a, exponent) := by
  have hshift : (Format.binary64.targetExponent (totalExponent mantissa exponent) -
      exponent).toNat = 0 := by omega
  rw [shiftToTargetExponent, shiftToExponent, hshift]
  rw [Int.natCast_zero, Int.add_zero]
  rfl

/-- Rounding is a cut, a rounding of the mantissa, and another cut. -/
theorem roundWithAccuracy_of_shifts (s : Sign) {mantissa r : Nat} {exponent e₁ : Int} {a : Accuracy}
    {em₁ em₂ : ExtendedMantissa}
    (hfirst : shiftToTargetExponent Format.binary64 mantissa exponent a = (em₁, e₁))
    (hrounded : em₁.roundedMantissa = r)
    (hsecond : shiftToTargetExponent Format.binary64 r e₁ .exact = (em₂, e))
    (hm : em₂.mantissa = m) (hpos : 0 < m) :
    roundWithAccuracy Format.binary64 s mantissa exponent a = .finite s m e hpos := by
  subst hm
  rw [roundWithAccuracy, hfirst]
  dsimp only
  rw [hrounded, hsecond]
  exact dif_neg hpos.ne'

theorem targetExponent_le (h : IsCanonical m e) :
    Format.binary64.targetExponent (totalExponent m e) ≤ e := by
  have hlt : m < 2 ^ 53 := h.lt
  have hlog : m.log2 < 53 := (Nat.log2_lt (Nat.pos_iff_ne_zero.1 h.pos)).2 hlt
  have hleast := h.least
  rw [targetExponent_eq]
  omega

/-- A mantissa that was rounded up to one more bit is cut once more. -/
theorem shiftToTargetExponent_carry (he : leastExponent < e) :
    shiftToTargetExponent Format.binary64 (2 * fractionSize) (e - 1) .exact =
      (⟨fractionSize, false, false⟩, e) := by
  have hlog : (2 * fractionSize).log2 = 53 := (Nat.log2_eq_iff (by decide)).2 ⟨le_refl _, by decide⟩
  have htarget : Format.binary64.targetExponent (totalExponent (2 * fractionSize) (e - 1)) = e := by
    rw [targetExponent_eq, hlog]
    omega
  have hshift : (e - (e - 1)).toNat = 1 := by omega
  rw [shiftToTargetExponent, htarget, shiftToExponent, hshift, Int.natCast_one, Int.sub_add_cancel]
  rfl

variable {x : Rat} {mantissa : Nat} {exponent : Int} {a : Accuracy}

/-- The width of a mantissa tells the size of the number that it stands for. -/
theorem StandsFor.lt_two_zpow
    (h : StandsFor (.ofMantissaAndAccuracy mantissa a) (x / 2 ^ exponent)) :
    x < 2 ^ (mantissa.log2 + 1 + exponent) := by
  have hpos : (0 : Rat) < 2 ^ exponent := by positivity
  have hlt := h.lt
  rw [mantissa_ofMantissaAndAccuracy, div_lt_iff₀ hpos] at hlt
  have hwidth : (mantissa : Rat) + 1 ≤ 2 ^ (mantissa.log2 + 1) := by
    exact_mod_cast Nat.lt_log2_self
  rw [zpow_add₀ two_ne_zero]
  refine hlt.trans_le (mul_le_mul_of_nonneg_right ?_ hpos.le)
  exact_mod_cast hwidth

theorem StandsFor.two_zpow_le
    (h : StandsFor (.ofMantissaAndAccuracy mantissa a) (x / 2 ^ exponent)) (hne : mantissa ≠ 0) :
    2 ^ (mantissa.log2 + exponent) ≤ x := by
  have hpos : (0 : Rat) < 2 ^ exponent := by positivity
  have hle := h.le
  rw [mantissa_ofMantissaAndAccuracy, le_div_iff₀ hpos] at hle
  have hwidth : (2 : Rat) ^ mantissa.log2 ≤ mantissa := by
    exact_mod_cast Nat.log2_self_le hne
  rw [zpow_add₀ two_ne_zero]
  refine le_trans (mul_le_mul_of_nonneg_right ?_ hpos.le) hle
  exact_mod_cast hwidth

/-- The first cut is at the width of a full mantissa, or at the least exponent. -/
theorem StandsFor.shiftToTargetExponent
    (h : StandsFor (.ofMantissaAndAccuracy mantissa a) (x / 2 ^ exponent)) {t : Int}
    (ht : Format.binary64.targetExponent (totalExponent mantissa exponent) = t)
    (hle : exponent ≤ t) :
    ∃ em, UnpackedFloat.shiftToTargetExponent Format.binary64 mantissa exponent a = (em, t) ∧
      StandsFor em (x / 2 ^ t) := by
  have hshift : exponent + ((t - exponent).toNat : Int) = t := by omega
  have hscale : x / 2 ^ exponent / 2 ^ (t - exponent).toNat = x / 2 ^ t := by
    rw [div_div, ← zpow_natCast, ← zpow_add₀ two_ne_zero, hshift]
  refine ⟨ExtendedMantissa.ofMantissaAndAccuracy mantissa a >>> (t - exponent).toNat, ?_, ?_⟩
  · rw [UnpackedFloat.shiftToTargetExponent, ht, shiftToExponent, hshift]
  · rw [← hscale]
    exact h.shiftRight _

/-- What is cut one place below a mantissa is next to a power of two, and is rounded up to it. -/
theorem roundedMantissa_carry (hleast : leastExponent < e) (hfull : fractionSize ≤ m)
    (h : IsCanonical m e) (hx : (RoundingInterval.around m e).Mem x) {t : Int} (ht : t < e)
    (hsize : x < 2 ^ (t + 53)) {em : ExtendedMantissa} (hem : StandsFor em (x / 2 ^ t)) :
    m = fractionSize ∧ t = e - 1 ∧ em.roundedMantissa = 2 * fractionSize := by
  have hpos : (0 : Rat) < 2 ^ e := by positivity
  have hsplit : ∀ k : Int, (2 : Rat) ^ (k + e) = 2 ^ k * 2 ^ e :=
    fun k => zpow_add₀ two_ne_zero k e
  have hbelow : x < fractionSize * 2 ^ e := by
    have hpower : ((fractionSize : Nat) : Rat) = 2 ^ (52 : Int) := by norm_num [fractionSize]
    rw [hpower, ← hsplit]
    exact hsize.trans_le (zpow_le_zpow_right₀ one_le_two (by omega))
  have hm : m = fractionSize := by
    have hlo := (mem_around_bounds h hx).1.trans_lt hbelow
    have hhalf : (m : Rat) < fractionSize + 1 := by
      linarith [lt_of_mul_lt_mul_right hlo hpos.le]
    have : m < fractionSize + 1 := by exact_mod_cast hhalf
    omega
  have hquarter := mem_around_quarter hm hleast hx
  rw [hm] at hquarter
  -- the interval reaches a quarter unit below the power, so the cut is one place lower
  have hte : t = e - 1 := by
    have hbound : (2 : Rat) ^ (51 + e) < 2 ^ (t + 53) := by
      refine lt_of_le_of_lt ?_ (hquarter.trans_lt hsize)
      rw [hsplit]
      refine mul_le_mul_of_nonneg_right ?_ hpos.le
      norm_num [fractionSize]
    have := (zpow_lt_zpow_iff_right₀ (by norm_num : (1 : Rat) < 2)).1 hbound
    omega
  subst hte
  have hhalf : (0 : Rat) < 2 ^ (e - 1) := by positivity
  have hdouble : (2 : Rat) ^ e = 2 * 2 ^ (e - 1) := by
    rw [← zpow_one_add₀ two_ne_zero, add_sub_cancel]
  rw [hdouble, ← mul_assoc] at hbelow hquarter
  rw [← le_div_iff₀ hhalf] at hquarter
  rw [← div_lt_iff₀ hhalf] at hbelow
  refine ⟨hm, rfl, hem.roundedMantissa_eq ?_ ?_ fun _ => by decide⟩
  · push_cast
    linarith
  · push_cast
    linarith

/-- **The real numbers of a rounding interval are rounded to its number.** -/
theorem roundWithAccuracy_eq (s : Sign) (h : IsCanonical m e)
    (hx : (RoundingInterval.around m e).Mem x)
    (hstands : StandsFor (.ofMantissaAndAccuracy mantissa a) (x / 2 ^ exponent))
    (hle : exponent ≤ Format.binary64.targetExponent (totalExponent mantissa exponent)) :
    roundWithAccuracy Format.binary64 s mantissa exponent a = .finite s m e h.pos := by
  have hpos : (0 : Rat) < 2 ^ e := by positivity
  obtain ⟨hlo, hhi, heven⟩ := mem_around_bounds h hx
  have hlt : (m : Rat) + 1 ≤ 2 ^ (53 : Int) := by exact_mod_cast h.lt
  have hsize := hstands.lt_two_zpow
  generalize ht : Format.binary64.targetExponent (totalExponent mantissa exponent) = t at hle
  obtain ⟨em, hfirst, hem⟩ := hstands.shiftToTargetExponent ht hle
  rw [targetExponent_eq] at ht
  have hte : t ≤ e := by
    have hleast := h.least
    by_cases hzero : mantissa = 0
    · have hlog : mantissa.log2 = 0 := by rw [hzero, Nat.log2_zero]
      omega
    · have hbound : (2 : Rat) ^ (mantissa.log2 + exponent) < 2 ^ (53 + e) := by
        refine (hstands.two_zpow_le hzero).trans_lt (hhi.trans_lt ?_)
        rw [zpow_add₀ two_ne_zero]
        exact mul_lt_mul_of_pos_right (by linarith) hpos
      have := (zpow_lt_zpow_iff_right₀ (by norm_num : (1 : Rat) < 2)).1 hbound
      omega
  by_cases heq : t = e
  · subst heq
    rw [← le_div_iff₀ hpos] at hlo
    rw [← div_le_iff₀ hpos] at hhi
    rw [← div_eq_iff hpos.ne', ← div_eq_iff hpos.ne'] at heven
    have hrounded := hem.roundedMantissa_eq hlo hhi heven
    exact roundWithAccuracy_of_shifts s hfirst hrounded
      (shiftToTargetExponent_of_le (targetExponent_le h) .exact) rfl h.pos
  · have hleast : leastExponent < e := by omega
    have hfull : fractionSize ≤ m := h.full.resolve_right hleast.ne'
    have hsize' : x < 2 ^ (t + 53) :=
      hsize.trans_le (zpow_le_zpow_right₀ one_le_two (by omega))
    obtain ⟨rfl, rfl, hrounded⟩ := roundedMantissa_carry hleast hfull h hx (by omega) hsize' hem
    exact roundWithAccuracy_of_shifts s hfirst hrounded (shiftToTargetExponent_carry hleast) rfl
      h.pos

end Round

end PlotSheet.Binary
