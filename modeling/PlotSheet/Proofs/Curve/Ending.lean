import PlotSheet.Proofs.Curve.Points
import PlotSheet.Proofs.Equation.Display
import PlotSheet.Proofs.Number.Monotone

/-!
# Where samplings end

The sampling of a polynomial that was read ends: its domain is the same for all equations. The range
of a parametric curve is typed, and may be endless: nothing exceeds an infinite end, and nothing
compares with an undefined one. As the parameter only grows with the number of the point, the last
number tells whether the sampling ends.

## Main results

* `Curve.ended_take_sampling_iff`, `Curve.ends_iff`: a sampling ends at the first number without a
  point
* `gridPoint_mono`: later points have no smaller parameters
* `ended_take_iff_of_parse`: the curves that were read whose sampling ends
-/

namespace PlotSheet

/-! ## The end of a sampling -/

section Sampling

variable {α : Type} [Scalar α] [Pow α Nat] [Trigonometric α]

/-- The state after some points does not depend on the points before them. -/
theorem Sampling.takeOnto_snd (taken : List (SamplePoint α)) (limit : Nat) (s : Sampling α) :
    (takeOnto taken limit s).2 = (s.take limit).2 := by
  rw [take]
  induction limit generalizing taken s with
  | zero => rfl
  | succ limit ih =>
    rw [takeOnto, takeOnto]
    rcases s.next with ⟨_ | p, s'⟩
    · rfl
    · exact (ih (p :: taken) s').trans (ih [p] s').symm

/-- A sampling ends within a limit if some number below the limit has no point. -/
theorem Curve.ended_take_sampling_iff (c : Curve α) (limit n : Nat) :
    ((⟨c, n, false⟩ : Sampling α).take limit).2.ended = true ↔
      ∃ i < limit, c.point? (n + i) = none := by
  induction limit generalizing n with
  | zero => simp [Sampling.take, Sampling.takeOnto]
  | succ limit ih =>
    cases h : c.point? n with
    | none =>
      refine iff_of_true ?_ ⟨0, Nat.succ_pos limit, h⟩
      simp [Sampling.take, Sampling.takeOnto, Sampling.next, h]
    | some p =>
      have hstep : ((⟨c, n, false⟩ : Sampling α).take (limit + 1)).2 =
          ((⟨c, n + 1, false⟩ : Sampling α).take limit).2 := by
        have hnext := Sampling.takeOnto_snd [p] limit ⟨c, n + 1, false⟩
        simpa [Sampling.take, Sampling.takeOnto, Sampling.next, h] using hnext
      rw [hstep, ih]
      constructor
      · rintro ⟨i, hi, hnone⟩
        exact ⟨i + 1, Nat.succ_lt_succ hi, by rwa [← Nat.add_right_comm, Nat.add_assoc] at hnone⟩
      · rintro ⟨i, hi, hnone⟩
        cases i with
        | zero =>
          rw [Nat.add_zero, h] at hnone
          cases hnone
        | succ i =>
          exact ⟨i, Nat.lt_of_succ_lt_succ hi, by rwa [Nat.add_right_comm, Nat.add_assoc]⟩

/-- A curve has a last point if some number has no point. -/
theorem Curve.ends_iff (c : Curve α) : c.ends = true ↔ ∃ n < mostPoints, c.point? n = none := by
  have hended := c.ended_take_sampling_iff mostPoints 0
  simp only [Nat.zero_add] at hended
  exact hended

end Sampling

/-! ## Parameters -/

section Grid

open Binary Equation

theorem isFinite_ofNat {n : Nat} (h : n < mostPoints) : (Float.ofNat n).isFinite = true :=
  isFinite_of_le_of_le (by decide : (Float.ofNat 0).isFinite = true)
    (by decide : (Float.ofNat (mostPoints - 1)).isFinite = true)
    (ofNat_mono (Nat.zero_le n)) (ofNat_mono (Nat.le_sub_one_of_lt h))

theorem isFinite_defaultStep : (defaultStep : Float).isFinite = true := by
  decide

theorem defaultStep_nonneg : 0 ≤ exact defaultStep := by
  have hle : (0 : Float) ≤ defaultStep := by decide
  exact exact_zero ▸ exact_le_of_le (by decide) isFinite_defaultStep hle

theorem mul_defaultStep_mono {n m : Nat} (h : n ≤ m) (hm : m < mostPoints) :
    Float.ofNat n * defaultStep ≤ Float.ofNat m * defaultStep :=
  mul_mono (isFinite_ofNat (Nat.lt_of_le_of_lt h hm)) (isFinite_ofNat hm) isFinite_defaultStep
    defaultStep_nonneg (ofNat_mono h)

theorem isFinite_mul_defaultStep {n : Nat} (h : n < mostPoints) :
    (Float.ofNat n * defaultStep).isFinite = true :=
  isFinite_of_le_of_le (by decide : (Float.ofNat 0 * defaultStep).isFinite = true)
    (by decide : (Float.ofNat (mostPoints - 1) * defaultStep).isFinite = true)
    (mul_defaultStep_mono (Nat.zero_le n) h)
    (mul_defaultStep_mono (Nat.le_sub_one_of_lt h) (by decide))

/-- Later points have no smaller parameters. -/
theorem gridPoint_mono {start : Float} (hstart : start.isNaN = false) {n m : Nat} (h : n ≤ m)
    (hm : m < mostPoints) :
    start + Scalar.ofInt n * defaultStep ≤ start + Scalar.ofInt m * defaultStep :=
  add_mono (isFinite_mul_defaultStep (Nat.lt_of_le_of_lt h hm)) (isFinite_mul_defaultStep hm) hstart
    (mul_defaultStep_mono h hm)

end Grid

/-! ## Curves that were read -/

section Parse

open Binary Equation

/-- The domain of all polynomials ends before their point 201. -/
theorem exists_point?_eq_none_of_polynomialOf (terms : List Term) :
    ∃ n < mostPoints,
      (Curve.polynomial (polynomialOf terms : Polynomial Float)).point? n = none := by
  have hpast : (defaultStart + defaultExtent : Float) <
      defaultStart + Scalar.ofInt (201 : Nat) * defaultStep := by decide
  exact ⟨201, by decide, if_pos hpast⟩

/-- A range is left at the last number, or not at all. -/
theorem exists_point?_eq_none_iff {p : Parametric Float} (hstep : p.step = defaultStep) :
    (∃ n < mostPoints, (Curve.parametric p).point? n = none) ↔
      p.stop < p.start + Scalar.ofInt ((mostPoints - 1 : Nat) : Int) * p.step := by
  have hpoint (n : Nat) : (Curve.parametric p).point? n = none ↔
      p.stop < p.start + Scalar.ofInt n * p.step := by
    simp [Curve.point?, Parametric.point?]
  simp only [hpoint, hstep]
  constructor
  · rintro ⟨n, hn, hlt⟩
    have hstart : p.start.isNaN = false := by
      rw [← Bool.not_eq_true]
      intro hnan
      -- an undefined end makes the parameter undefined, which exceeds nothing
      have hdefined := (isNaN_eq_false_of_lt hlt).2
      have hsum : (p.start + Scalar.ofInt n * defaultStep).isNaN = true := isNaN_add (.inl hnan)
      rw [hsum] at hdefined
      cases hdefined
    exact lt_of_lt_le hlt (gridPoint_mono hstart (Nat.le_sub_one_of_lt hn) (by decide))
  · intro hlt
    exact ⟨mostPoints - 1, by decide, hlt⟩

/-- **Where the samplings of equations end.** The sampling of a polynomial always ends, and that of
a parametric curve exactly if the last number of a point is past the end of its range: not if an
end of the range is undefined, if the range has no end, or if it is wider than all points can
cover. -/
theorem ended_take_iff_of_parse {most : Nat} {text : String} {c : Curve Float}
    (h : parse most text = .ok c) :
    ((c.sampling.take mostPoints).2.ended = true ↔ ∃ n < mostPoints, c.point? n = none) ∧
      ((∃ n < mostPoints, c.point? n = none) ↔
        ∀ p, c = .parametric p →
          p.stop < p.start + Scalar.ofInt ((mostPoints - 1 : Nat) : Int) * p.step) := by
  constructor
  · exact c.ends_iff
  · rcases exists_of_parse h with ⟨p, rfl, -, hstep⟩ | ⟨terms, rfl, -⟩
    · rw [exists_point?_eq_none_iff hstep]
      constructor
      · rintro hlt q hq
        cases hq
        exact hlt
      · exact fun hall => hall p rfl
    · exact iff_of_true (exists_point?_eq_none_of_polynomialOf terms) fun p hp => nomatch hp

/-- The range of a circle ends; a range with an undefined end does not. -/
theorem ended_take_unit_circle :
    (∃ c : Curve Float, parse 1 "x=cos(t);y=sin(t);0<t<2pi" = .ok c ∧
      (c.sampling.take mostPoints).2.ended = true) ∧
    ∃ c : Curve Float, parse 1 "x=cos(t);y=sin(t);0<t<nan" = .ok c ∧
      (c.sampling.take mostPoints).2.ended = false := by
  have hcircle : parse 1 "x=cos(t);y=sin(t);0<t<2pi" = .ok (.parametric
      ⟨⟨.cos, 1, 1⟩, ⟨.sin, 1, 1⟩, 0, 6.283185307179586, 0.1⟩ : Curve Float) := by decide +kernel
  have hundefined : parse 1 "x=cos(t);y=sin(t);0<t<nan" = .ok (.parametric
      ⟨⟨.cos, 1, 1⟩, ⟨.sin, 1, 1⟩, 0, 0 / 0, 0.1⟩ : Curve Float) := by decide +kernel
  constructor
  · obtain ⟨hended, hcovered⟩ := ended_take_iff_of_parse hcircle
    refine ⟨_, hcircle, hended.2 (hcovered.2 ?_)⟩
    rintro p hp
    cases hp
    decide +kernel
  · obtain ⟨hended, hcovered⟩ := ended_take_iff_of_parse hundefined
    refine ⟨_, hundefined, ?_⟩
    rw [← Bool.not_eq_true, hended, hcovered]
    intro hall
    exact absurd (hall _ rfl) (by decide +kernel)

/-- A range without an end is accepted, and none of its points is the last. -/
theorem not_forall_exists_point?_eq_none :
    ¬ ∀ (most : Nat) (text : String) (c : Curve Float), parse most text = .ok c →
      ∃ n, c.point? n = none := by
  intro hall
  have hread : parse 1 "x=cos(t);y=sin(t);0<t<inf" = .ok (.parametric
      ⟨⟨.cos, 1, 1⟩, ⟨.sin, 1, 1⟩, 0, 1 / 0, 0.1⟩ : Curve Float) := by decide +kernel
  obtain ⟨n, hn⟩ := hall 1 _ _ hread
  have hinfinity : (1 / 0 : Float) = number (.infinity .positive) := by decide +kernel
  rw [Curve.point?, Parametric.point?, hinfinity, if_neg (not_infinity_lt _)] at hn
  cases hn

end Parse

end PlotSheet
