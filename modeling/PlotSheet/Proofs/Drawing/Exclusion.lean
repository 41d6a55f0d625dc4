import Mathlib.Algebra.Order.Field.Rat
import Mathlib.Tactic.Linarith
import PlotSheet.Proofs.Curve.Points
import PlotSheet.Proofs.Drawing.Trace

/-!
# Lines across excluded values

A polynomial is left undrawn around excluded values: a sample nearer than half a step to one of them
is a gap, and no line touches a gap. In exact arithmetic a line can then cross an excluded value in
one place only, half way between two samples, where neither of the two is near enough. Such a line
is drawn unless some other excluded value takes one of its ends away.

## Main results

* `excludes_near_iff`: which values are excluded
* `sample_on_grid`: where samples lie, and which of them are gaps
* `segment?_across_excluded_iff`: when a line crosses an excluded value
-/

namespace PlotSheet

/-! ## Excluded values in exact arithmetic -/

theorem ratAbs_eq_abs (x : Rat) : Scalar.abs x = |x| := by
  rcases le_total 0 x with h | h
  · rw [abs_of_nonneg h]
    exact Rat.abs_of_nonneg h
  · rw [abs_of_nonpos h]
    exact Rat.abs_of_nonpos h

/-- A value is excluded if it is nearer than half a step to one of the listed values. -/
theorem excludes_near_iff (values : List Rat) (x step : Rat) :
    (Exclusion.near values).excludes x step = true ↔ ∃ r ∈ values, |x - r| < |step| / 2 := by
  rw [Exclusion.excludes, List.any_eq_true]
  refine exists_congr fun r => and_congr_right fun _ => ?_
  rw [decide_eq_true_iff, ratAbs_eq_abs, ratAbs_eq_abs]
  rfl

/-- A sample lies on the grid of the domain, and is a gap exactly at excluded values. -/
theorem sample_on_grid [Trigonometric Rat] {p : Polynomial Rat} {values : List Rat} {i : Nat}
    {s : SamplePoint Rat}
    (h : (Curve.polynomial (p.avoiding values)).points[i]? = some s) :
    s.x = p.start + i * p.step ∧
      (s.canStart = true ↔ ∀ r ∈ values, |p.step| / 2 ≤ |s.x - r|) ∧ s.canEnd = s.canStart := by
  have hpoint : (p.avoiding values).point? i = some s := Curve.point?_of_getElem?_points h
  have hx : p.start + Scalar.ofInt i * p.step = p.start + (i : Rat) * p.step := by
    rfl
  rw [Polynomial.point?] at hpoint
  simp only [Polynomial.avoiding, hx] at hpoint
  split at hpoint
  · cases hpoint
  · have hiff := excludes_near_iff values (p.start + i * p.step) p.step
    split at hpoint
    · next hexcluded =>
      obtain rfl := Option.some.inj hpoint
      obtain ⟨r, hr, hlt⟩ := hiff.1 hexcluded
      refine ⟨rfl, ⟨fun hstart => absurd hstart Bool.false_ne_true, fun hall => ?_⟩, rfl⟩
      exact absurd hlt (not_lt.2 (hall r hr))
    · next hexcluded =>
      obtain rfl := Option.some.inj hpoint
      refine ⟨rfl, ⟨fun _ r hr => ?_, fun _ => rfl⟩, rfl⟩
      by_contra hlt
      exact hexcluded (hiff.2 ⟨r, hr, not_le.1 hlt⟩)

namespace Drawing

/-! ## Lines between neighbours on the grid -/

theorem isSome_segment?_iff (v : Viewport Rat) (a b : SamplePoint Rat) :
    (segment? v a b).isSome = true ↔ a.canStart = true ∧ b.canEnd = true := by
  rw [segment?, ← Bool.and_eq_true]
  cases a.canStart && b.canEnd <;> simp

/-- A value between two neighbours that is near neither of them is half way between them. -/
theorem eq_half_way {x step q : Rat} (hlo : x ≤ q) (hhi : q ≤ x + step)
    (hleft : step / 2 ≤ |x - q|) (hright : step / 2 ≤ |x + step - q|) : q = x + step / 2 := by
  rw [abs_of_nonpos (sub_nonpos.2 hlo)] at hleft
  rw [abs_of_nonneg (sub_nonneg.2 hhi)] at hright
  linarith

/-- **Lines across excluded values.** The drawing of a polynomial holds the lines between
consecutive samples. Such a line crosses an excluded value exactly if that value is half way
between the two samples and no excluded value is nearer to either of them. -/
theorem segment?_across_excluded_iff [Trigonometric Rat] (v : Viewport Rat) (p : Polynomial Rat)
    (values : List Rat) (hstep : 0 < p.step) :
    (trace v (Curve.polynomial (p.avoiding values)).points).1 =
      segments v (Curve.polynomial (p.avoiding values)).points ∧
    ∀ i a b, (Curve.polynomial (p.avoiding values)).points[i]? = some a →
      (Curve.polynomial (p.avoiding values)).points[i + 1]? = some b →
      ∀ q ∈ values, a.x ≤ q → q ≤ b.x →
        ((segment? v a b).isSome = true ↔ q = a.x + p.step / 2 ∧
          ∀ r ∈ values, p.step / 2 ≤ |a.x - r| ∧ p.step / 2 ≤ |b.x - r|) := by
  refine ⟨steps_trace v _, fun i a b ha hb q hq hlo hhi => ?_⟩
  obtain ⟨hax, haStart, -⟩ := sample_on_grid ha
  obtain ⟨hbx, hbStart, hbEnd⟩ := sample_on_grid hb
  have hneighbour : b.x = a.x + p.step := by
    rw [hbx, hax, Nat.cast_succ, add_mul, one_mul, add_assoc]
  rw [abs_of_pos hstep] at haStart hbStart
  rw [isSome_segment?_iff, hbEnd, haStart, hbStart]
  constructor
  · rintro ⟨hleft, hright⟩
    refine ⟨?_, fun r hr => ⟨hleft r hr, hright r hr⟩⟩
    rw [hneighbour] at hhi hright
    exact eq_half_way hlo hhi (hleft q hq) (hright q hq)
  · rintro ⟨-, hall⟩
    exact ⟨fun r hr => (hall r hr).1, fun r hr => (hall r hr).2⟩

/-- The samples of `y = x` at zero and one, with the value half way between them excluded. -/
def oneHalfExcluded : Polynomial Rat :=
  Polynomial.avoiding ⟨[.ofInt 0, .ofInt 1], 0, 1, 1, .never⟩ [1 / 2]

theorem getElem?_points_oneHalfExcluded [Trigonometric Rat] :
    (Curve.polynomial oneHalfExcluded).points[0]? = some (.ordinary 0 0) ∧
      (Curve.polynomial oneHalfExcluded).points[1]? = some (.ordinary 1 1) := by
  have hzero : oneHalfExcluded.point? 0 = some (.ordinary 0 0) := by decide +kernel
  have hone : oneHalfExcluded.point? 1 = some (.ordinary 1 1) := by decide +kernel
  have hsome : ∀ j ≤ 1, ((Curve.polynomial oneHalfExcluded).point? j).isSome := by
    intro j hj
    obtain rfl | rfl : j = 0 ∨ j = 1 := by omega
    · exact Option.isSome_of_eq_some hzero
    · exact Option.isSome_of_eq_some hone
  rw [Curve.getElem?_points, Curve.getElem?_points,
    if_pos ⟨by decide, fun j hj => hsome j (Nat.le_succ_of_le hj)⟩, if_pos ⟨by decide, hsome⟩]
  exact ⟨hzero, hone⟩

/-- The line from zero to one is drawn across the excluded one half. -/
theorem segment?_across_one_half :
    0 < oneHalfExcluded.step ∧
    ∃ _ : Trigonometric Rat, ∃ a b,
      (Curve.polynomial oneHalfExcluded).points[0]? = some a ∧
      (Curve.polynomial oneHalfExcluded).points[1]? = some b ∧ a.x ≤ 1 / 2 ∧ 1 / 2 ≤ b.x ∧
      (segment? .initial a b).isSome = true := by
  let trig : Trigonometric Rat := ⟨id, id, id⟩
  have hstep : 0 < oneHalfExcluded.step := by decide +kernel
  obtain ⟨ha, hb⟩ := getElem?_points_oneHalfExcluded
  refine ⟨hstep, trig, _, _, ha, hb, by decide +kernel, by decide +kernel, ?_⟩
  refine ((segment?_across_excluded_iff .initial oneHalfExcluded [1 / 2] hstep).2 0 _ _ ha hb
    (1 / 2) List.mem_cons_self (by decide +kernel) (by decide +kernel)).2 ⟨by decide +kernel, ?_⟩
  intro r hr
  obtain rfl := List.mem_singleton.1 hr
  norm_num [SamplePoint.ordinary, oneHalfExcluded, Polynomial.avoiding]

/-- Lines do cross excluded values. -/
theorem not_forall_segment?_eq_none :
    ¬ ∀ (_ : Trigonometric Rat) (v : Viewport Rat) (p : Polynomial Rat) (values : List Rat),
      0 < p.step → 0 ≤ p.extent → ∀ i a b,
      (Curve.polynomial (p.avoiding values)).points[i]? = some a →
      (Curve.polynomial (p.avoiding values)).points[i + 1]? = some b →
      ∀ q ∈ values, a.x ≤ q → q ≤ b.x → segment? v a b = none := by
  intro hall
  let trig : Trigonometric Rat := ⟨id, id, id⟩
  obtain ⟨ha, hb⟩ := getElem?_points_oneHalfExcluded
  have hnone := hall trig .initial oneHalfExcluded [1 / 2] (by decide +kernel) (by decide +kernel)
    0 _ _ ha hb (1 / 2) List.mem_cons_self (by decide +kernel) (by decide +kernel)
  cases hnone

end Drawing

end PlotSheet
