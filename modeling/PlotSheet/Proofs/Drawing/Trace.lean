import Mathlib.Data.List.Forall2
import PlotSheet.Drawing.Trace

/-!
# The lines between consecutive points

The drawing of a list of points holds one line for every pair of consecutive points whose flags
allow it, in order, and no other line.

## Main definitions

* `segment?`, `segments`: the line between two points, and all lines between consecutive ones

## Main results

* `steps_trace`: the lines of a drawing, pair by pair
* `forall₂_segment?`: which pairs are joined, and by which lines
* `lineCount_trace`: the number of its lines
-/

namespace PlotSheet.Drawing

variable {α : Type} [Scalar α]

/-- The line between two consecutive points, if the first allows it to start and the second to
end. -/
def segment? (v : Viewport α) (p q : SamplePoint α) : Option Step :=
  if p.canStart && q.canEnd then
    some (.line (pixel (v.project ⟨p.x, p.y⟩)) (pixel (v.project ⟨q.x, q.y⟩)))
  else none

/-- The lines between consecutive points of a list. -/
def segments (v : Viewport α) (points : List (SamplePoint α)) : List Step :=
  (points.zip points.tail).filterMap fun pair => segment? v pair.1 pair.2

theorem segments_cons_cons (v : Viewport α) (p q : SamplePoint α)
    (rest : List (SamplePoint α)) :
    segments v (p :: q :: rest) = (segment? v p q).toList ++ segments v (q :: rest) := by
  rw [segments, List.tail_cons, List.zip_cons_cons, List.filterMap_cons]
  cases segment? v p q <;> rfl

/-- A point behind another one adds the line between the two. -/
theorem steps_add {v : Viewport α} {t : Trace α} {p : SamplePoint α}
    (h : t.previous = some (projected v p)) (q : SamplePoint α) :
    (t.add v q).steps.toList = t.steps.toList ++ (segment? v p q).toList := by
  rw [Trace.add, h, segment?]
  by_cases hflags : (p.canStart && q.canEnd) = true
  · simp [projected, hflags]
  · simp [projected, hflags]

theorem previous_add (v : Viewport α) (t : Trace α) (q : SamplePoint α) :
    (t.add v q).previous = some (projected v q) := by
  rw [Trace.add]
  cases t.previous with
  | none => rfl
  | some last => dsimp only; split <;> rfl

theorem steps_foldl_add {v : Viewport α} (points : List (SamplePoint α)) {t : Trace α}
    {p : SamplePoint α} (h : t.previous = some (projected v p)) :
    (points.foldl (Trace.add v) t).steps.toList = t.steps.toList ++ segments v (p :: points) := by
  -- induction on the points, with the last one added as the start of the next line
  induction points generalizing t p with
  | nil => simp [segments]
  | cons q points ih =>
    rw [List.foldl_cons, ih (previous_add v t q), steps_add h, segments_cons_cons,
      List.append_assoc]

/-- The drawing of points holds the lines between consecutive ones. -/
theorem steps_trace (v : Viewport α) (points : List (SamplePoint α)) :
    (trace v points).1 = segments v points := by
  cases points with
  | nil => rfl
  | cons p points =>
    have h : (Trace.empty.add v p).previous = some (projected v p) := previous_add v _ p
    exact (steps_foldl_add points h).trans (List.nil_append _)

/-- The pairs whose flags allow it are joined, in order. -/
theorem forall₂_segment? (v : Viewport α) (pairs : List (SamplePoint α × SamplePoint α)) :
    List.Forall₂ (fun pair step => (pair.1.canStart = true ∧ pair.2.canEnd = true) ∧
        step = Step.line (pixel (v.project ⟨pair.1.x, pair.1.y⟩))
          (pixel (v.project ⟨pair.2.x, pair.2.y⟩)))
      (pairs.filter fun pair => pair.1.canStart && pair.2.canEnd)
      (pairs.filterMap fun pair => segment? v pair.1 pair.2) := by
  induction pairs with
  | nil => exact .nil
  | cons pair pairs ih =>
    rw [List.filter_cons, List.filterMap_cons, segment?]
    by_cases hflags : (pair.1.canStart && pair.2.canEnd) = true
    · rw [if_pos hflags, if_pos hflags]
      exact .cons ⟨(Bool.and_eq_true _ _).mp hflags, rfl⟩ ih
    · rw [if_neg hflags, if_neg hflags]
      exact ih

/-! ## The number of lines -/

theorem segments_stats_add {v : Viewport α} {t : Trace α} (h : t.stats.segments = t.steps.size)
    (p : SamplePoint α) : (t.add v p).stats.segments = (t.add v p).steps.size := by
  unfold Trace.add
  cases t.previous with
  | none => exact h
  | some last =>
    dsimp only
    split
    · simp [h]
    · exact h

theorem segments_stats_foldl_add {v : Viewport α} (points : List (SamplePoint α)) {t : Trace α}
    (h : t.stats.segments = t.steps.size) :
    (points.foldl (Trace.add v) t).stats.segments =
      (points.foldl (Trace.add v) t).steps.size := by
  induction points generalizing t with
  | nil => exact h
  | cons p points ih => exact ih (segments_stats_add h p)

theorem isLine_of_mem_segments {v : Viewport α} {points : List (SamplePoint α)} {step : Step}
    (h : step ∈ segments v points) : step.isLine = true := by
  obtain ⟨pair, -, hpair⟩ := List.mem_filterMap.1 h
  rw [segment?] at hpair
  split at hpair
  · obtain rfl := Option.some.inj hpair
    rfl
  · cases hpair

/-- The joined pairs of points are counted as lines, and the drawing holds nothing else. -/
theorem lineCount_trace (v : Viewport α) (points : List (SamplePoint α)) :
    lineCount (trace v points).1 = (trace v points).2.segments := by
  have hline : ∀ step ∈ (trace v points).1, step.isLine = true := by
    intro step hstep
    rw [steps_trace] at hstep
    exact isLine_of_mem_segments hstep
  have hcount : (trace v points).2.segments = (trace v points).1.length :=
    segments_stats_foldl_add points (rfl : (Trace.empty : Trace α).stats.segments = 0)
  rw [hcount, lineCount]
  exact List.countP_eq_length.2 hline

end PlotSheet.Drawing
