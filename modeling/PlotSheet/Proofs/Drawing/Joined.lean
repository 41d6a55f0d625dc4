import PlotSheet.Proofs.Drawing.Trace
import PlotSheet.Proofs.Number.Nearest

/-!
# Joined pairs and breaks

Every pair of consecutive points is joined by a line or counted as a break, and nothing else is
counted. A line ends at the pixels nearest to the two points of its pair, whatever their coordinates
are: undefined coordinates count as zero, and infinite ones as the greatest or the least of all.
Gaps are joined with nothing.

## Main definitions

* `roundedCoordinate`: the pixel coordinate of a number
* `IsPixelOf`: the pixel of a point
* `Joins`: a line between two points that allow it

## Main results

* `segments_add_breaks_trace`: the pairs that are joined and those that are not
* `toInt_pixelCoordinate`: numbers are rounded as their exact values are
* `trace_joins_consecutive`: the lines of a drawing
-/

namespace PlotSheet.Drawing

/-! ## Pairs -/

section Pairs

variable {α : Type} [Scalar α] (v : Viewport α)

/-- A point behind another one makes one pair more, joined or not. -/
theorem pairs_stats_add {t : Trace α} {last : Projected α} (h : t.previous = some last)
    (p : SamplePoint α) :
    (t.add v p).stats.segments + (t.add v p).stats.breaks =
      t.stats.segments + t.stats.breaks + 1 := by
  rw [Trace.add, h]
  dsimp only
  split
  · exact Nat.add_right_comm ..
  · rfl

theorem pairs_stats_foldl_add (points : List (SamplePoint α)) {t : Trace α}
    {last : Projected α} (h : t.previous = some last) :
    (points.foldl (Trace.add v) t).stats.segments + (points.foldl (Trace.add v) t).stats.breaks =
      t.stats.segments + t.stats.breaks + points.length := by
  induction points generalizing t last with
  | nil => rfl
  | cons p points ih =>
    rw [List.foldl_cons, ih (previous_add v t p), pairs_stats_add v h, List.length_cons,
      Nat.add_assoc, Nat.add_comm 1]

/-- Each pair of consecutive points is joined or counted as a break. -/
theorem segments_add_breaks_trace (points : List (SamplePoint α)) :
    (trace v points).2.segments + (trace v points).2.breaks = points.length - 1 := by
  cases points with
  | nil => rfl
  | cons p points =>
    have hpairs := pairs_stats_foldl_add v points (previous_add v Trace.empty p)
    rw [List.length_cons, Nat.add_sub_cancel, ← Nat.zero_add points.length]
    exact hpairs

end Pairs

/-! ## Ends of lines -/

/-- The pixel coordinate of a number: its nearest integer, a half away from zero, kept within 32
bits; zero for an undefined number. -/
def roundedCoordinate (x : Float) : Int :=
  if x.isNaN then 0
  else max Int32.minValue.toInt (min Int32.maxValue.toInt (nearestInt (Binary.exact x)))

/-- Numbers are rounded to pixels as their exact values are. -/
theorem toInt_pixelCoordinate (x : Float) : (pixelCoordinate x).toInt = roundedCoordinate x := by
  have hleast : Int32.minValue.toInt = -2147483648 := rfl
  have hgreatest : Int32.maxValue.toInt = 2147483647 := rfl
  have hnearest :
      nearestWithin Int32.minValue.toInt Int32.maxValue.toInt x = roundedCoordinate x := by
    unfold roundedCoordinate
    by_cases hx : x.isNaN = true
    · rw [if_pos hx, nearestWithin_of_isNaN _ _ hx]
    · have hoverflow : (2147483648 : Rat) ≤ Binary.overflow :=
        calc (2147483648 : Rat) ≤ 2 ^ (31 : Int) := by norm_num
          _ ≤ 2 ^ (1024 : Int) := zpow_le_zpow_right₀ (by norm_num) (by norm_num)
      rw [if_neg hx]
      apply nearestWithin_eq (Bool.eq_false_of_not_eq_true hx)
      · rw [hleast]
        push_cast
        linarith
      · rw [hgreatest]
        push_cast
        linarith
      · decide
  have hbounds : -2147483648 ≤ roundedCoordinate x ∧ roundedCoordinate x ≤ 2147483647 := by
    unfold roundedCoordinate
    rw [hleast, hgreatest]
    split <;> omega
  change (Int32.ofInt (nearestWithin Int32.minValue.toInt Int32.maxValue.toInt x)).toInt = _
  rw [hnearest]
  exact Int32.toInt_ofInt_of_le hbounds.1 (Int.lt_add_one_of_le hbounds.2)

/-- The pixel of a point. -/
structure IsPixelOf (a : Pixel) (p : Point Float) : Prop where
  x : a.x.toInt = roundedCoordinate p.x
  y : a.y.toInt = roundedCoordinate p.y

theorem isPixelOf_pixel (p : Point Float) : IsPixelOf (pixel p) p :=
  ⟨toInt_pixelCoordinate p.x, toInt_pixelCoordinate p.y⟩

/-! ## Lines -/

/-- The step joins two points: it is a line from the pixel of the first, which allows lines to
start, to that of the second, which allows them to end. Neither is a gap. -/
structure Joins (v : Viewport Float) (p q : SamplePoint Float) (step : Step) : Prop where
  canStart : p.canStart = true
  canEnd : q.canEnd = true
  not_gap : p.isGap = false ∧ q.isGap = false
  exists_line : ∃ start stop, step = .line start stop ∧
    IsPixelOf start (v.project ⟨p.x, p.y⟩) ∧ IsPixelOf stop (v.project ⟨q.x, q.y⟩)

theorem joins_of_flags (v : Viewport Float) {p q : SamplePoint Float} (hstart : p.canStart = true)
    (hend : q.canEnd = true) :
    Joins v p q (.line (pixel (v.project ⟨p.x, p.y⟩)) (pixel (v.project ⟨q.x, q.y⟩))) := by
  refine ⟨hstart, hend, ⟨?_, ?_⟩, _, _, rfl, isPixelOf_pixel _, isPixelOf_pixel _⟩
  · rw [SamplePoint.isGap, hstart]
    rfl
  · rw [SamplePoint.isGap, hend]
    exact Bool.and_false _

/-- The pairs whose flags allow it are joined, in order. -/
theorem forall₂_joins (v : Viewport Float) (pairs : List (SamplePoint Float × SamplePoint Float)) :
    List.Forall₂ (fun pair step => Joins v pair.1 pair.2 step)
      (pairs.filter fun pair => pair.1.canStart && pair.2.canEnd)
      (pairs.filterMap fun pair => segment? v pair.1 pair.2) :=
  (forall₂_segment? v pairs).imp fun _ _ ⟨hflags, hstep⟩ =>
    hstep ▸ joins_of_flags v hflags.1 hflags.2

/-- **Consecutive points are joined where both allow it.** The lines of a drawing join the pairs of
consecutive points of which the first allows a line to start and the second to end, one line for
each and in order. They are counted as segments, and all other pairs as breaks. -/
theorem trace_joins_consecutive (v : Viewport Float) (points : List (SamplePoint Float)) :
    List.Forall₂ (fun pair step => Joins v pair.1 pair.2 step)
        ((points.zip points.tail).filter fun pair => pair.1.canStart && pair.2.canEnd)
        (trace v points).1 ∧
      (trace v points).2.segments = (trace v points).1.length ∧
      (trace v points).2.segments + (trace v points).2.breaks = points.length - 1 := by
  refine ⟨?_, ?_, segments_add_breaks_trace v points⟩
  · rw [steps_trace]
    exact forall₂_joins v _
  · exact segments_stats_foldl_add points (rfl : (Trace.empty : Trace Float).stats.segments = 0)

/-- A gap cuts on both of its sides, a point that only allows lines to start or to end on one. -/
example : (trace .initial [.ordinary 0 0, ⟨1, 0, true, false⟩, .ordinary 2 0, .gap 3,
    .ordinary (4 : Float) 0]).2 = ⟨1, 3⟩ := by
  decide +kernel

end PlotSheet.Drawing
