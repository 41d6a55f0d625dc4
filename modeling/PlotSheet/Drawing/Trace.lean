import PlotSheet.Curve.Points
import PlotSheet.Drawing.Basic

/-!
# Drawing the points of a curve

Consecutive points are joined by a line when the earlier one allows a line to start and the later
one allows it to end. So a gap cuts the curve on both of its sides.

## Main definitions

* `TraceStats`: the pairs of consecutive points that are joined and that are not
* `Trace`, `Trace.add`: the drawing of the points so far
* `trace`: the drawing of a list of points
-/

namespace PlotSheet.Drawing

/-- How many pairs of consecutive points are joined, and how many are not. -/
structure TraceStats where
  segments : Nat
  breaks : Nat
  deriving DecidableEq, Repr

/-- A sample point in pixel coordinates. -/
structure Projected (α : Type) where
  position : Point α
  canStart : Bool
  canEnd : Bool

/-- The drawing of the points so far. -/
structure Trace (α : Type) where
  previous : Option (Projected α)
  steps : Array Step
  stats : TraceStats

variable {α : Type} [Scalar α]

/-- The pixel coordinates of a sample point. -/
def projected (v : Viewport α) (p : SamplePoint α) : Projected α :=
  ⟨v.project ⟨p.x, p.y⟩, p.canStart, p.canEnd⟩

namespace Trace

/-- The drawing of no points. -/
def empty : Trace α :=
  ⟨none, #[], ⟨0, 0⟩⟩

/-- The drawing with one more point. -/
def add (v : Viewport α) (t : Trace α) (p : SamplePoint α) : Trace α :=
  let next := projected v p
  match t.previous with
  | none => { t with previous := some next }
  | some last =>
    if last.canStart && next.canEnd then
      { previous := some next
        steps := t.steps.push (.line (pixel last.position) (pixel next.position))
        stats := { t.stats with segments := t.stats.segments + 1 } }
    else
      { t with
        previous := some next
        stats := { t.stats with breaks := t.stats.breaks + 1 } }

end Trace

/-- The drawing of the points in the current color and width. -/
def trace (v : Viewport α) (points : List (SamplePoint α)) : List Step × TraceStats :=
  let t := points.foldl (Trace.add v) Trace.empty
  (t.steps.toList, t.stats)

end PlotSheet.Drawing
