import Mathlib.Algebra.BigOperators.Fin
import Mathlib.Data.Rat.Floor
import PlotSheet.Proofs.Curve.Points
import PlotSheet.Proofs.Drawing.Exclusion

/-!
# Samples on a grid

A sampling answers one call after the other, and once an answer is none all later ones are. In exact
arithmetic the points of a curve lie on the grid of its domain, at the multiples of the step that do
not exceed the extent. So a positive step gives one point more than whole steps fit into the extent,
and a step that leads nowhere or backwards gives points without end.

## Main definitions

* `Sampling.answer`: the answers of a sampling by number
* `Curve.gridValue`: the values of a domain by number
* `Curve.IsSample`: the point of a curve at a value of its domain

## Main results

* `Sampling.answer_eq_none_of_le`: no answer follows the end
* `Curve.point?_eq_none_iff`: the numbers without a point
* `Curve.answers_on_grid`: the answers to all calls, in exact arithmetic
-/

namespace PlotSheet

/-! ## Answers -/

section Answers

variable {α : Type} [Scalar α] [Pow α Nat] [Trigonometric α]

namespace Sampling

/-- The answer to the call with the given number. -/
def answer (s : Sampling α) : Nat → Option (SamplePoint α)
  | 0 => s.next.1
  | n + 1 => s.next.2.answer n

/-- A call that is answered by none ends the sampling. -/
theorem ended_of_next_eq_none {s : Sampling α} (h : s.next.1 = none) : s.next.2.ended = true := by
  rw [next] at h ⊢
  split
  · assumption
  · next hended =>
    rw [if_neg hended] at h
    cases hpoint : s.curve.point? s.index with
    | none => rfl
    | some p => rw [hpoint] at h; cases h

theorem answer_of_ended {s : Sampling α} (h : s.ended = true) (n : Nat) : s.answer n = none := by
  have hnext : s.next = (none, s) := if_pos h
  induction n with
  | zero => rw [answer, hnext]
  | succ n ih => rw [answer, hnext, ih]

/-- No answer follows the end. -/
theorem answer_eq_none_of_le {s : Sampling α} {n m : Nat} (h : n ≤ m) (hn : s.answer n = none) :
    s.answer m = none := by
  -- induction on the call that is answered by none, from the state that its predecessor leaves
  induction n generalizing s m with
  | zero =>
    cases m with
    | zero => exact hn
    | succ m => exact answer_of_ended (ended_of_next_eq_none hn) m
  | succ n ih =>
    cases m with
    | zero => exact absurd h (Nat.not_succ_le_zero n)
    | succ m =>
      rw [answer] at hn ⊢
      exact ih (Nat.le_of_succ_le_succ h) hn

/-- The points that are taken are the answers to the calls. -/
theorem take_eq_filterMap_answer (limit : Nat) (s : Sampling α) :
    (s.take limit).1 = (List.range limit).filterMap s.answer := by
  induction limit generalizing s with
  | zero => rfl
  | succ limit ih =>
    have hshift : (List.range limit).filterMap (s.answer ∘ Nat.succ) =
        (List.range limit).filterMap s.next.2.answer := rfl
    rw [List.range_succ_eq_map, List.filterMap_cons, List.filterMap_map, hshift, take, takeOnto,
      answer]
    rcases hnext : s.next with ⟨- | p, s'⟩
    · have hended : s'.ended = true := by
        simpa [hnext] using ended_of_next_eq_none (s := s)
      have hnil : (List.range limit).filterMap s'.answer = [] :=
        List.filterMap_eq_nil_iff.2 fun n _ => answer_of_ended hended n
      exact hnil.symm
    · exact (takeOnto_eq_append [p] limit s').trans (congrArg _ (ih s'))

/-- The next answer is the point with the next number. -/
theorem next_eq_of_point?_eq_some {c : Curve α} {k : Nat} {p : SamplePoint α}
    (h : c.point? k = some p) : (⟨c, k, false⟩ : Sampling α).next = (some p, ⟨c, k + 1, false⟩) := by
  simp [next, h]

theorem next_fst (c : Curve α) (k : Nat) : (⟨c, k, false⟩ : Sampling α).next.1 = c.point? k := by
  cases h : c.point? k with
  | none => simp [next, h]
  | some p => rw [next_eq_of_point?_eq_some h]

end Sampling

theorem Curve.answer_eq_point?_add {c : Curve α} {n k : Nat}
    (h : ∀ j < n, (c.point? (k + j)).isSome) :
    (⟨c, k, false⟩ : Sampling α).answer n = c.point? (k + n) := by
  induction n generalizing k with
  | zero => exact Sampling.next_fst c k
  | succ n ih =>
    obtain ⟨p, hp⟩ := Option.isSome_iff_exists.1 (h 0 (Nat.succ_pos n))
    rw [Nat.add_zero] at hp
    rw [Sampling.answer, Sampling.next_eq_of_point?_eq_some hp, ih, Nat.add_assoc, Nat.add_comm 1]
    intro j hj
    rw [Nat.add_assoc, Nat.add_comm 1]
    exact h (j + 1) (Nat.succ_lt_succ hj)

/-- A call is answered by the point with its number as long as no point before it is missing. -/
theorem Curve.answer_eq_point? {c : Curve α} {n : Nat} (h : ∀ j < n, (c.point? j).isSome) :
    c.sampling.answer n = c.point? n := by
  have hadd := answer_eq_point?_add (c := c) (n := n) (k := 0)
  simp only [Nat.zero_add] at hadd
  exact hadd h

end Answers

/-! ## The grid of a domain -/

namespace Exclusion

/-- The values around which nothing is drawn. -/
def values {α : Type} : Exclusion α → List α
  | never => []
  | near values => values

theorem excludes_eq_true_iff (e : Exclusion Rat) (x step : Rat) :
    e.excludes x step = true ↔ ∃ r ∈ e.values, |x - r| < |step| / 2 := by
  cases e with
  | never => exact iff_of_false nofun fun ⟨_, hr, _⟩ => nomatch hr
  | near values => exact excludes_near_iff values x step

end Exclusion

namespace Polynomial

/-- The sum of the terms, in exact arithmetic. -/
theorem value_eq_sum (p : Polynomial Rat) (x : Rat) :
    p.value x = ∑ i : Fin p.coefficients.length, (p.coefficients.get i).value * x ^ (i : Nat) := by
  have hadd (cs : List (Coefficient Rat)) : ∀ (sum : Rat) (e : Nat), addTerms x sum e cs =
      sum + ∑ i : Fin cs.length, (cs.get i).value * x ^ (e + (i : Nat)) := by
    induction cs with
    | nil => simp [addTerms]
    | cons c cs ih =>
      intro sum e
      rw [addTerms, ih, add_assoc]
      congr 1
      simp [Fin.sum_univ_succ, add_assoc, add_comm 1]
  have h := hadd p.coefficients 0 0
  simp only [zero_add] at h
  exact h

/-- The point is that of the polynomial at the value: a gap nearer than half a step to an excluded
value, and joined with its neighbours at all others. -/
structure IsSample (p : Polynomial Rat) (x : Rat) (s : SamplePoint Rat) : Prop where
  x_eq : s.x = x
  isGap_iff : s.isGap = true ↔ ∃ r ∈ p.exclusion.values, |x - r| < |p.step| / 2
  eq_ordinary : s.isGap = false → s = .ordinary x
    (∑ i : Fin p.coefficients.length, (p.coefficients.get i).value * x ^ (i : Nat))

end Polynomial

namespace Curve

/-- The first value of the domain. -/
def start : Curve Rat → Rat
  | polynomial p => p.start
  | parametric p => p.start

/-- The step of the domain. -/
def step : Curve Rat → Rat
  | polynomial p => p.step
  | parametric p => p.step

/-- The extent of the domain. -/
def extent : Curve Rat → Rat
  | polynomial p => p.extent
  | parametric p => p.stop - p.start

/-- The value of the domain with the given number. -/
def gridValue (c : Curve Rat) (n : Nat) : Rat :=
  c.start + n * c.step

/-- As many steps as fit into the extent do not exceed it, and no more. -/
theorem mul_step_le_extent_iff {c : Curve Rat} (hstep : 0 < c.step) (hextent : 0 ≤ c.extent)
    (n : Nat) : n * c.step ≤ c.extent ↔ n < ⌊c.extent / c.step⌋₊ + 1 := by
  rw [Nat.lt_succ_iff, Nat.le_floor_iff (div_nonneg hextent hstep.le), le_div_iff₀ hstep]

section Answers

variable [Trigonometric Rat]

/-- The point is that of the curve at the value of its domain. -/
def IsSample : Curve Rat → Rat → SamplePoint Rat → Prop
  | polynomial p, x, s => p.IsSample x s
  | parametric p, t, s => s = .ordinary (p.x.value t) (p.y.value t)

/-- A number has no point if that many steps exceed the extent. -/
theorem point?_eq_none_iff (c : Curve Rat) (n : Nat) :
    c.point? n = none ↔ c.extent < n * c.step := by
  cases c with
  | polynomial p =>
    have hpast : p.start + p.extent < p.start + (n : Rat) * p.step ↔ p.extent < n * p.step :=
      add_lt_add_iff_left p.start
    rw [point?, Polynomial.point?]
    split
    · next h => exact iff_of_true rfl (hpast.1 h)
    · next h => split <;> exact iff_of_false (Option.some_ne_none _) (mt hpast.2 h)
  | parametric p =>
    have hpast : p.stop < p.start + (n : Rat) * p.step ↔ p.stop - p.start < n * p.step :=
      sub_lt_iff_lt_add'.symm
    rw [point?, Parametric.point?]
    split
    · next h => exact iff_of_true rfl (hpast.1 h)
    · next h => exact iff_of_false (Option.some_ne_none _) (mt hpast.2 h)

theorem isSome_point?_iff {c : Curve Rat} {n : Nat} :
    (c.point? n).isSome = true ↔ n * c.step ≤ c.extent := by
  rw [Option.isSome_iff_ne_none, ne_eq, point?_eq_none_iff, not_lt]

theorem isSample_of_point?_eq_some {c : Curve Rat} {n : Nat} {s : SamplePoint Rat}
    (h : c.point? n = some s) : c.IsSample (c.gridValue n) s := by
  cases c with
  | polynomial p =>
    have hexcluded := p.exclusion.excludes_eq_true_iff (p.start + n * p.step) p.step
    rw [point?, Polynomial.point?] at h
    split at h
    · cases h
    · split at h
      · next hnear =>
        obtain rfl := Option.some.inj h
        exact ⟨rfl, iff_of_true rfl (hexcluded.1 hnear), fun h => absurd h.symm Bool.false_ne_true⟩
      · next hfar =>
        obtain rfl := Option.some.inj h
        exact ⟨rfl, iff_of_false Bool.false_ne_true (mt hexcluded.2 hfar),
          fun _ => congrArg _ (p.value_eq_sum _)⟩
  | parametric p =>
    rw [point?, Parametric.point?] at h
    split at h
    · cases h
    · exact (Option.some.inj h).symm

/-- A sampling answers with its points in order as long as the steps do not exceed the extent. -/
theorem exists_answer {c : Curve Rat} {n : Nat} (h : ∀ j ≤ n, j * c.step ≤ c.extent) :
    ∃ s, c.sampling.answer n = some s ∧ c.IsSample (c.gridValue n) s := by
  obtain ⟨s, hs⟩ := Option.isSome_iff_exists.1 (isSome_point?_iff.2 (h n le_rfl))
  refine ⟨s, ?_, isSample_of_point?_eq_some hs⟩
  rw [answer_eq_point? fun j hj => isSome_point?_iff.2 (h j hj.le), hs]

/-- **The answers to all calls.** In exact arithmetic the sampling of a domain with a positive step
and an extent that is not negative answers with one point more than whole steps fit into the extent:
those at the first values of the grid, in order and within the domain, which the value after them
exceeds. If the step is not positive, every call is answered by a point. In any arithmetic nothing
but none follows none, and the points that are taken are the answers. -/
theorem answers_on_grid (c : Curve Rat) :
    (0 < c.step → 0 ≤ c.extent →
      (∀ n < ⌊c.extent / c.step⌋₊ + 1,
        (∃ s, c.sampling.answer n = some s ∧ c.IsSample (c.gridValue n) s) ∧
        c.start ≤ c.gridValue n ∧ c.gridValue n ≤ c.start + c.extent) ∧
      (∀ n ≥ ⌊c.extent / c.step⌋₊ + 1, c.sampling.answer n = none) ∧
      c.start + c.extent < c.gridValue (⌊c.extent / c.step⌋₊ + 1)) ∧
    (c.step ≤ 0 → 0 ≤ c.extent →
      ∀ n, ∃ s, c.sampling.answer n = some s ∧ c.IsSample (c.gridValue n) s) ∧
    ∀ (α : Type) [Scalar α] [Pow α Nat] [Trigonometric α] (s : Sampling α),
      (∀ n m, n ≤ m → s.answer n = none → s.answer m = none) ∧
      ∀ limit, (s.take limit).1 = (List.range limit).filterMap s.answer := by
  refine ⟨fun hstep hextent => ?_, fun hstep hextent n => ?_, ?_⟩
  · have hfits := mul_step_le_extent_iff hstep hextent
    have hpast : c.extent < (⌊c.extent / c.step⌋₊ + 1 : Nat) * c.step :=
      not_le.1 (mt (hfits _).1 (lt_irrefl _))
    refine ⟨fun n hn => ⟨?_, ?_, ?_⟩, fun n hn => ?_, ?_⟩
    · exact exists_answer fun j hj => (hfits j).2 (lt_of_le_of_lt hj hn)
    · exact le_add_of_nonneg_right (mul_nonneg (Nat.cast_nonneg n) hstep.le)
    · exact (add_le_add_iff_left _).2 ((hfits n).2 hn)
    · have hlast : c.sampling.answer (⌊c.extent / c.step⌋₊ + 1) = none := by
        rw [answer_eq_point? fun j hj => isSome_point?_iff.2 ((hfits j).2 hj), point?_eq_none_iff]
        exact hpast
      exact Sampling.answer_eq_none_of_le hn hlast
    · exact (add_lt_add_iff_left _).2 hpast
  · exact exists_answer fun j _ =>
      (mul_nonpos_of_nonneg_of_nonpos (Nat.cast_nonneg j) hstep).trans hextent
  · exact fun α _ _ _ s =>
      ⟨fun _ _ => Sampling.answer_eq_none_of_le, fun limit => s.take_eq_filterMap_answer limit⟩

end Answers

/-- The line `y = x` from zero to one in steps of two fifths, left undrawn around one half. -/
def brokenLine : Curve Rat :=
  .polynomial ⟨[.ofInt 0, .ofInt 1], 0, 2 / 5, 1, .near [1 / 2]⟩

/-- An arc that is not left, as its parameter stands still. -/
def standingArc : Curve Rat :=
  .parametric ⟨⟨.cos, 1, 1⟩, ⟨.sin, 1, 1⟩, 0, 1, 0⟩

/-- Two steps of two fifths fit into the domain from zero to one, and the value after the first of
them is nearer than half a step to the excluded one half. Steps of zero do not leave a domain. -/
theorem answers_on_grid_brokenLine :
    0 < brokenLine.step ∧ 0 ≤ brokenLine.extent ∧ standingArc.step ≤ 0 ∧ 0 ≤ standingArc.extent ∧
    ∃ _ : Trigonometric Rat,
      (∃ s, brokenLine.sampling.answer 1 = some s ∧ s.x = 2 / 5 ∧ s.isGap = true) ∧
      brokenLine.sampling.answer 2 = some (.ordinary (4 / 5) (4 / 5)) ∧
      brokenLine.sampling.answer 3 = none ∧
      ∃ s, standingArc.sampling.answer 1000 = some s := by
  let trig : Trigonometric Rat := ⟨id, id, id⟩
  have hstep : 0 < brokenLine.step := by norm_num [brokenLine, step]
  have hextent : 0 ≤ brokenLine.extent := by norm_num [brokenLine, extent]
  have hstanding : standingArc.step ≤ 0 := le_rfl
  have harc : 0 ≤ standingArc.extent := by norm_num [standingArc, extent]
  have hlast : ⌊brokenLine.extent / brokenLine.step⌋₊ = 2 := by
    rw [Nat.floor_eq_iff (div_nonneg hextent hstep.le)]
    norm_num [brokenLine, step, extent]
  have hvalue (n : Nat) : brokenLine.gridValue n = n * (2 / 5) := zero_add _
  obtain ⟨hanswers, hnone, -⟩ := (answers_on_grid brokenLine).1 hstep hextent
  rw [hlast] at hanswers hnone
  obtain ⟨s, hs, -⟩ := (answers_on_grid standingArc).2.1 hstanding harc 1000
  refine ⟨hstep, hextent, hstanding, harc, trig, ?_, ?_, hnone 3 le_rfl, s, hs⟩
  · obtain ⟨⟨s, hs, hx, hgap, -⟩, -⟩ := hanswers 1 (by norm_num)
    rw [hvalue] at hx hgap
    refine ⟨s, hs, by rw [hx]; norm_num, hgap.2 ⟨1 / 2, List.mem_singleton_self _, ?_⟩⟩
    norm_num
  · obtain ⟨⟨s, hs, hx, hgap, hordinary⟩, -⟩ := hanswers 2 (by norm_num)
    rw [hvalue] at hx hgap hordinary
    rw [hs, hordinary]
    · decide +kernel
    · rw [← Bool.not_eq_true, hgap]
      norm_num [Exclusion.values]

end Curve

end PlotSheet
