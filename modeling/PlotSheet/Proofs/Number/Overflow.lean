import PlotSheet.Proofs.Number.Monotone

/-!
# Overflow and nearness

Rounding leads to the nearest of all finite numbers. Values from half a place past the greatest
finite number on are rounded to an infinity, and no others.

## Main definitions

* `threshold`: the least magnitude that is rounded to an infinity

## Main results

* `IsRounded.lt_overflow_iff`, `IsRounding.isFinite_iff`: what is rounded to a finite number
* `Rounds.abs_sub_le`: no finite number is nearer than the rounded one
* `IsRounded.two_mul_sub_lt`: a value mirrored in what it is rounded to does not overflow
* `IsRounding.abs_le`: no result is more than twice its exact value
-/

namespace PlotSheet.Binary

open Float.Model Float.Model.UnpackedFloat

/-! ## The greatest place -/

/-- The least magnitude that is rounded to an infinity: half a place past the greatest finite
number. -/
def threshold : Rat := 2 ^ (1024 : Int) - 2 ^ (970 : Int)

theorem overflow_eq : overflow = 2 ^ (53 : Int) * 2 ^ (971 : Int) :=
  zpow_add₀ two_ne_zero 53 971

theorem threshold_eq : threshold = (2 ^ (53 : Int) - 1 / 2) * 2 ^ (971 : Int) := by
  have hhalf : (2 : Rat) ^ (971 : Int) = 2 ^ (970 : Int) * 2 := zpow_add_one₀ two_ne_zero 970
  have hoverflow : (2 : Rat) ^ (1024 : Int) = 2 ^ (53 : Int) * 2 ^ (971 : Int) := overflow_eq
  rw [threshold, hoverflow, hhalf]
  ring

theorem threshold_lt_overflow : threshold < overflow :=
  sub_lt_self _ (by positivity)

/-- Whatever is not above a full mantissa is far below the threshold. -/
theorem lt_threshold {y : Rat} (h : y ≤ 2 ^ 52) : y < threshold := by
  have hone : (1 : Rat) ≤ 2 ^ (971 : Int) := one_le_zpow₀ one_le_two (by decide)
  rw [threshold_eq]
  calc y ≤ 2 ^ 52 := h
    _ < (2 ^ (53 : Int) - 1 / 2) * 1 := by norm_num
    _ ≤ (2 ^ (53 : Int) - 1 / 2) * 2 ^ (971 : Int) :=
        mul_le_mul_of_nonneg_left hone (by norm_num)

/-- The place of a magnitude below all infinities. -/
theorem IsPlace.le_of_lt_overflow {t : Int} {x : Rat} (h : IsPlace t x) (hx : x < overflow) :
    t ≤ 971 := by
  rcases h.full with rfl | hfull
  · decide
  · have := (zpow_lt_zpow_iff_right₀ (by norm_num : (1 : Rat) < 2)).1 (hfull.trans_lt hx)
    omega

/-- What is rounded below the greatest place stays far below the infinities. -/
theorem IsPlace.nearest_mul_le {t : Int} {x : Rat} {r : Nat} (h : IsPlace t x)
    (hr : IsNearest r (x / 2 ^ t)) (ht : t ≤ 970) :
    (r : Rat) * 2 ^ t ≤ 2 ^ (52 : Int) * 2 ^ (971 : Int) := by
  have hwide : (r : Rat) ≤ 2 ^ (53 : Int) := by exact_mod_cast h.nearest_le hr
  calc (r : Rat) * 2 ^ t ≤ 2 ^ (53 : Int) * 2 ^ t := mul_le_mul_of_nonneg_right hwide (by positivity)
    _ = 2 ^ (53 + t) := (zpow_add₀ two_ne_zero _ _).symm
    _ ≤ 2 ^ (52 + 971 : Int) := zpow_le_zpow_right₀ one_le_two (by omega)
    _ = 2 ^ (52 : Int) * 2 ^ (971 : Int) := zpow_add₀ two_ne_zero _ _

/-- The threshold is a tie between the greatest finite number, whose mantissa is odd, and the
power of two past it. -/
theorem isRounded_threshold : IsRounded overflow threshold := by
  have hquotient : threshold / 2 ^ (971 : Int) = ((2 ^ 53 : Nat) : Rat) - 1 / 2 := by
    rw [threshold_eq, mul_div_cancel_right₀ _ (by positivity)]
    norm_num
  refine ⟨971, 2 ^ 53, ⟨by decide, threshold_lt_overflow, .inr ?_⟩, ?_, ?_⟩
  · rw [threshold_eq, add_comm, zpow_add₀ two_ne_zero]
    exact mul_le_mul_of_nonneg_right (by norm_num) (by positivity)
  · rw [hquotient]
    exact ⟨le_rfl, by linarith, fun _ => by decide⟩
  · rw [overflow_eq]
    norm_num

section Rounded

variable {w y : Rat}

/-- What is rounded below the infinities are the magnitudes below the threshold. -/
theorem IsRounded.lt_overflow_iff (h : IsRounded w y) : w < overflow ↔ y < threshold := by
  constructor
  · intro hw
    by_contra hy
    exact absurd hw (not_lt.2 (isRounded_threshold.mono h (not_lt.1 hy)))
  · intro hy
    obtain ⟨t, r, ht, hr, rfl⟩ := h
    have hplace := ht.le_of_lt_overflow (hy.trans threshold_lt_overflow)
    rcases hplace.lt_or_eq with hlt | rfl
    · rw [overflow_eq]
      exact (ht.nearest_mul_le hr (by omega)).trans_lt
        (mul_lt_mul_of_pos_right (by norm_num) (by positivity))
    · have hpos : (0 : Rat) < 2 ^ (971 : Int) := by positivity
      have hquotient : y / 2 ^ (971 : Int) < 2 ^ (53 : Int) - 1 / 2 := by
        rw [div_lt_iff₀ hpos, ← threshold_eq]
        exact hy
      rw [overflow_eq]
      exact mul_lt_mul_of_pos_right (by linarith [hr.lower]) hpos

/-- A magnitude mirrored in what it is rounded to is below the threshold. -/
theorem IsRounded.two_mul_sub_lt (h : IsRounded w y) (hw : w < overflow) :
    2 * w - y < threshold := by
  have hy := h.lt_overflow_iff.1 hw
  obtain ⟨t, r, ht, hr, rfl⟩ := h
  have hpos : (0 : Rat) < 2 ^ t := by positivity
  have hplace := ht.le_of_lt_overflow (hy.trans threshold_lt_overflow)
  have hlower := hr.lower
  have hscale : y = y / 2 ^ t * 2 ^ t := (div_mul_cancel₀ y hpos.ne').symm
  have hbound := ht.nearest_mul_le hr
  generalize y / 2 ^ t = q at hr hlower hscale
  rw [hscale]
  rcases hplace.lt_or_eq with hlt | rfl
  · have hstep : (2 : Rat) ^ t ≤ 2 ^ (971 : Int) := zpow_le_zpow_right₀ one_le_two hplace
    have hdistance : (r - q) * 2 ^ t ≤ 1 / 2 * 2 ^ (971 : Int) :=
      mul_le_mul (by linarith) hstep hpos.le (by norm_num)
    calc 2 * (r * 2 ^ t) - q * 2 ^ t = r * 2 ^ t + (r - q) * 2 ^ t := by ring
      _ ≤ 2 ^ (52 : Int) * 2 ^ (971 : Int) + 1 / 2 * 2 ^ (971 : Int) :=
          add_le_add (hbound (by omega)) hdistance
      _ = (2 ^ (52 : Int) + 1 / 2) * 2 ^ (971 : Int) := (add_mul ..).symm
      _ < threshold := by
          rw [threshold_eq]
          exact mul_lt_mul_of_pos_right (by norm_num) (by positivity)
  · -- the greatest full mantissa is odd, so that a tie is not rounded up to it
    rw [threshold_eq, ← mul_assoc, ← sub_mul]
    apply mul_lt_mul_of_pos_right _ hpos
    rw [overflow_eq] at hw
    have hlt : r < 2 ^ 53 := by
      have := lt_of_mul_lt_mul_right hw hpos.le
      exact_mod_cast this
    rcases hlower.eq_or_lt with heq | hbelow
    · have heven := hr.even (.inl heq.symm)
      have hle : r + 2 ≤ 2 ^ 53 := by omega
      have hcast : (r : Rat) + 2 ≤ 2 ^ (53 : Int) := by exact_mod_cast hle
      linarith
    · have hcast : (r : Rat) + 1 ≤ 2 ^ (53 : Int) := by exact_mod_cast hlt
      linarith

/-- No multiple of a place is nearer than the rounded one. -/
theorem IsNearest.abs_sub_le {r : Nat} {q : Rat} (h : IsNearest r q) (k : Nat) :
    |(r : Rat) - q| ≤ |(k : Rat) - q| := by
  have hlower := h.lower
  have hupper := h.upper
  have hhalf : |(r : Rat) - q| ≤ 1 / 2 := abs_le.2 ⟨by linarith, by linarith⟩
  rcases lt_trichotomy k r with hlt | rfl | hlt
  · have hcast : (k : Rat) + 1 ≤ r := by exact_mod_cast hlt
    exact hhalf.trans (le_abs.2 (.inr (by linarith)))
  · exact le_rfl
  · have hcast : (r : Rat) + 1 ≤ k := by exact_mod_cast hlt
    exact hhalf.trans (le_abs.2 (.inl (by linarith)))

/-- No finite magnitude is nearer than the rounded one. -/
theorem IsRounded.abs_sub_le (h : IsRounded w y) {f : Rat}
    (hf : f = 0 ∨ ∃ m e, IsCanonical m e ∧ f = m * 2 ^ e) : |w - y| ≤ |f - y| := by
  obtain ⟨t, r, ht, hr, rfl⟩ := h
  have hpos : (0 : Rat) < 2 ^ t := by positivity
  have hmultiple (k : Nat) : |r * 2 ^ t - y| ≤ |k * 2 ^ t - y| := by
    have hscaled (n : Nat) : |n * 2 ^ t - y| = |(n : Rat) - y / 2 ^ t| * 2 ^ t := by
      rw [← abs_of_pos hpos, ← abs_mul, abs_of_pos hpos, sub_mul, div_mul_cancel₀ y hpos.ne']
    rw [hscaled, hscaled]
    exact mul_le_mul_of_nonneg_right (hr.abs_sub_le k) hpos.le
  rcases hf with rfl | ⟨m, e, hc, rfl⟩
  · have hzero := hmultiple 0
    rwa [Nat.cast_zero, zero_mul] at hzero
  · by_cases he : t ≤ e
    · obtain ⟨k, rfl⟩ := Int.le.dest he
      have hsame : (m : Rat) * 2 ^ (t + (k : Int)) = ((m * 2 ^ k : Nat) : Rat) * 2 ^ t := by
        rw [zpow_add₀ two_ne_zero, zpow_natCast]
        push_cast
        ring
      rw [hsame]
      exact hmultiple _
    · have hleast : t ≠ leastExponent := fun h => he (h ▸ hc.least)
      have hfull := ht.full.resolve_left hleast
      have hbelow : (m : Rat) * 2 ^ e ≤ 2 ^ (t + 52) :=
        hc.value_lt.le.trans (zpow_le_zpow_right₀ one_le_two (by omega))
      have hfirst := hmultiple (2 ^ 52)
      have hsame : ((2 ^ 52 : Nat) : Rat) * 2 ^ t = 2 ^ (t + 52) := by
        rw [zpow_add₀ two_ne_zero, mul_comm]
        norm_num
      rw [hsame, abs_of_nonpos (sub_nonpos.2 hfull)] at hfirst
      refine hfirst.trans ?_
      rw [abs_of_nonpos (sub_nonpos.2 (hbelow.trans hfull))]
      linarith

end Rounded

/-! ## Signed values -/

section Signed

variable {v y : Rat} {x z : Float}

/-- A finite number is a zero or a canonical magnitude with a sign. -/
theorem exists_exact_eq_signed (hz : z.isFinite = true) :
    ∃ s f, exact z = signed s f ∧ 0 ≤ f ∧ (f = 0 ∨ ∃ m e, IsCanonical m e ∧ f = m * 2 ^ e) := by
  rcases finite_cases hz with ⟨s, rfl⟩ | ⟨s, m, e, h, rfl⟩
  · refine ⟨s, 0, ?_, le_rfl, .inl rfl⟩
    rw [exact_number (.zero s), signed_zero]
    rfl
  · exact ⟨s, _, exact_number (.finite s h), h.value_pos.le, .inr ⟨m, e, h, rfl⟩⟩

theorem abs_signed_sub_signed (s : Sign) (a b : Rat) : |signed s a - signed s b| = |a - b| := by
  cases s with
  | positive => rfl
  | negative => rw [signed, signed, neg_sub_neg, abs_sub_comm]

/-- Magnitudes of different signs are as far apart as their sum says. -/
theorem abs_signed_sub_signed_of_ne {s s' : Sign} (h : s ≠ s') {a b : Rat} (ha : 0 ≤ a)
    (hb : 0 ≤ b) : |signed s a - signed s' b| = a + b := by
  cases s <;> cases s'
  · exact absurd rfl h
  · rw [signed, signed, abs_of_nonpos (by linarith)]
    ring
  · rw [signed, signed, abs_of_nonneg (by linarith)]
    ring
  · exact absurd rfl h

/-- **No finite number is nearer than the rounded one.** -/
theorem Rounds.abs_sub_le (h : Rounds v y) (hz : z.isFinite = true) : |v - y| ≤ |exact z - y| := by
  obtain ⟨s, y, w, rfl, rfl, hy, hw⟩ := h
  obtain ⟨s', f, hf, hnonneg, hmagnitude⟩ := exists_exact_eq_signed hz
  rw [abs_signed_sub_signed, hf]
  by_cases hs : s' = s
  · subst hs
    rw [abs_signed_sub_signed]
    exact hw.abs_sub_le hmagnitude
  · have hzero := hw.abs_sub_le (.inl rfl)
    rw [zero_sub, abs_neg, abs_of_nonneg hy] at hzero
    rw [abs_signed_sub_signed_of_ne hs hnonneg hy]
    linarith

end Signed

/-! ## Finite results -/

section Results

variable {v y : Rat} {x z : Float}

theorem abs_signed (s : Sign) {a : Rat} (h : 0 ≤ a) : |signed s a| = a := by
  cases s with
  | positive => exact abs_of_nonneg h
  | negative => rw [signed, abs_neg, abs_of_nonneg h]

/-- The finite numbers are those below the infinities. -/
theorem isFinite_iff_abs_exact_lt (hnan : x.isNaN = false) :
    x.isFinite = true ↔ |exact x| < overflow := by
  constructor
  · intro hfinite
    exact abs_lt.2 (exact_bounds hfinite)
  · intro hlt
    by_contra hfinite
    obtain ⟨s, rfl⟩ := eq_infinity hnan hfinite
    rw [exact_number (.infinity s), value, abs_signed s overflow_pos.le] at hlt
    exact hlt.false

theorem abs_clamp_lt_iff : |clamp v| < overflow ↔ |v| < overflow := by
  have hpos := overflow_pos
  rw [abs_lt, abs_lt, clamp]
  constructor
  · rintro ⟨hlo, hhi⟩
    have hmin : min v overflow < overflow := (le_max_right _ _).trans_lt hhi
    have hlt : v < overflow := (min_lt_iff.1 hmin).resolve_right (lt_irrefl _)
    rw [min_eq_left hlt.le] at hlo
    exact ⟨(lt_max_iff.1 hlo).resolve_left (lt_irrefl _), hlt⟩
  · rintro ⟨hlo, hhi⟩
    rw [min_eq_left hhi.le, max_eq_right hlo.le]
    exact ⟨hlo, hhi⟩

theorem IsRounding.isNaN_eq_false (h : IsRounding x y) : x.isNaN = false := by
  obtain ⟨v, -, -, hnan⟩ := h
  exact hnan

/-- **A result is finite if its exact value is below the threshold.** -/
theorem IsRounding.isFinite_iff (h : IsRounding x y) : x.isFinite = true ↔ |y| < threshold := by
  obtain ⟨v, ⟨s, y, w, rfl, rfl, hy, hw⟩, hx, hnan⟩ := h
  rw [isFinite_iff_abs_exact_lt hnan, hx, abs_clamp_lt_iff, abs_signed s hy,
    abs_signed s hw.nonneg, hw.lt_overflow_iff]

/-- The value of a finite result is what its exact value is rounded to. -/
theorem IsRounding.rounds (h : IsRounding x y) (hx : x.isFinite = true) : Rounds (exact x) y := by
  obtain ⟨v, hv, hexact, hnan⟩ := h
  have hlt := (isFinite_iff_abs_exact_lt hnan).1 hx
  rw [hexact, abs_clamp_lt_iff, abs_lt] at hlt
  rw [hexact, clamp_of_lt hlt.1 hlt.2]
  exact hv

/-- No finite result is more than twice its exact value. -/
theorem IsRounding.abs_le (h : IsRounding x y) (hx : x.isFinite = true) :
    |exact x| ≤ 2 * |y| := by
  have hzero : (number (.zero .positive)).isFinite = true := isFinite_number (.zero _)
  have hnear := (h.rounds hx).abs_sub_le hzero
  rw [exact_number (.zero _), value, zero_sub, abs_neg] at hnear
  have := abs_sub_abs_le_abs_sub (exact x) y
  linarith

end Results

end PlotSheet.Binary
