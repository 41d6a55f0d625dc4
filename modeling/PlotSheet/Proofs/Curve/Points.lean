import Mathlib.Logic.Basic
import PlotSheet.Curve.Points

/-!
# The points of a curve by number

Sampling yields the points of a curve in the order of their numbers, up to the first number without
a point.

## Main results

* `Curve.getElem?_points`: the points that are yielded
-/

namespace PlotSheet

variable {α : Type} [Scalar α] [Pow α Nat] [Trigonometric α]

namespace Sampling

theorem takeOnto_eq_append (taken : List (SamplePoint α)) (limit : Nat) (s : Sampling α) :
    (takeOnto taken limit s).1 = taken.reverse ++ (s.take limit).1 := by
  rw [take]
  induction limit generalizing taken s with
  | zero => simp [takeOnto]
  | succ limit ih =>
    rw [takeOnto, takeOnto]
    rcases s.next with ⟨_ | p, s'⟩
    · simp
    · rw [ih (p :: taken), ih [p]]
      simp

theorem take_of_point?_eq_none {c : Curve α} {n : Nat} (h : c.point? n = none) (limit : Nat) :
    ((⟨c, n, false⟩ : Sampling α).take limit).1 = [] := by
  cases limit with
  | zero => rfl
  | succ limit => simp [take, takeOnto, next, h]

theorem take_of_point?_eq_some {c : Curve α} {n : Nat} {p : SamplePoint α}
    (h : c.point? n = some p) (limit : Nat) :
    ((⟨c, n, false⟩ : Sampling α).take (limit + 1)).1 =
      p :: ((⟨c, n + 1, false⟩ : Sampling α).take limit).1 := by
  have hstep := takeOnto_eq_append [p] limit ⟨c, n + 1, false⟩
  simpa [take, takeOnto, next, h] using hstep

end Sampling

/-- The point with a number is yielded if there is none missing up to it. -/
theorem Curve.getElem?_take_sampling (c : Curve α) (limit n i : Nat) :
    (((⟨c, n, false⟩ : Sampling α).take limit).1)[i]? =
      if i < limit ∧ ∀ j ≤ i, (c.point? (n + j)).isSome then c.point? (n + i) else none := by
  induction limit generalizing n i with
  | zero => simp [Sampling.take, Sampling.takeOnto]
  | succ limit ih =>
    cases h : c.point? n with
    | none =>
      rw [Sampling.take_of_point?_eq_none h, if_neg fun hall => ?_, List.getElem?_nil]
      simpa [h] using hall.2 0 (Nat.zero_le i)
    | some p =>
      rw [Sampling.take_of_point?_eq_some h]
      cases i with
      | zero => simp [h]
      | succ i =>
        rw [List.getElem?_cons_succ, ih, Nat.add_right_comm n 1 i, Nat.add_assoc n i 1]
        refine if_congr ?_ rfl rfl
        constructor
        · rintro ⟨hi, hall⟩
          refine ⟨Nat.succ_lt_succ hi, fun j hj => ?_⟩
          cases j with
          | zero => simp [h]
          | succ j =>
            have := hall j (Nat.le_of_succ_le_succ hj)
            rwa [Nat.add_right_comm n 1 j] at this
        · rintro ⟨hi, hall⟩
          refine ⟨Nat.lt_of_succ_lt_succ hi, fun j hj => ?_⟩
          rw [Nat.add_right_comm n 1 j]
          exact hall (j + 1) (Nat.succ_le_succ hj)

/-- The points of a curve are those with numbers before the first number without one. -/
theorem Curve.getElem?_points (c : Curve α) (i : Nat) :
    c.points[i]? =
      if i < mostPoints ∧ ∀ j ≤ i, (c.point? j).isSome then c.point? i else none := by
  have h := c.getElem?_take_sampling mostPoints 0 i
  simp only [Nat.zero_add] at h
  exact h

/-- Every point that is yielded is the point with its number. -/
theorem Curve.point?_of_getElem?_points {c : Curve α} {i : Nat} {p : SamplePoint α}
    (h : c.points[i]? = some p) : c.point? i = some p := by
  rw [c.getElem?_points] at h
  split at h
  · exact h
  · cases h

end PlotSheet
