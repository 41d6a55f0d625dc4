import PlotSheet.Drawing.Trace
import PlotSheet.Plane.Axes

/-!
# Scenes

A scene is a list of curves with a color and a visibility each. It is drawn with the axes first,
then every visible curve in its own color.

## Main definitions

* `Figure`: a curve as it is drawn
* `Stats`: what a drawing holds
* `drawAxes`, `drawFigures`, `drawScene`
-/

namespace PlotSheet.Drawing

/-- A curve with its color. A figure that is not visible is neither sampled nor drawn. -/
structure Figure (α : Type) where
  curve : Curve α
  color : Rgb
  visible : Bool

/-- What a drawing holds. -/
structure Stats where
  axes : Nat
  curves : Nat
  segments : Nat
  /-- The pairs of consecutive points that are not joined. -/
  breaks : Nat
  deriving DecidableEq, Repr

/-- The line width of the axes. -/
def axisWidth : Float := 1

/-- The line width of curves. -/
def curveWidth : Float := 2

/-- The last pixel coordinate of a length. -/
def farEnd (length : UInt32) : Int32 :=
  Int32.ofInt (min length.toNat Int32.maxValue.toInt)

variable {α : Type} [Scalar α]

/-- The line of the horizontal axis, over the full width. -/
def rowLine (v : Viewport α) (row : α) : Step :=
  .line ⟨0, pixelCoordinate row⟩ ⟨farEnd v.frame.width, pixelCoordinate row⟩

/-- The line of the vertical axis, over the full height. -/
def columnLine (v : Viewport α) (column : α) : Step :=
  .line ⟨pixelCoordinate column, 0⟩ ⟨pixelCoordinate column, farEnd v.frame.height⟩

/-- The lines of the visible axes. -/
def axisLines (v : Viewport α) : List Step :=
  (v.axes.horizontal.map (rowLine v)).toList ++ (v.axes.vertical.map (columnLine v)).toList

/-- The drawing of the visible axes. Color and width are set even if there are none. -/
def drawAxes (v : Viewport α) : List Step :=
  .color .axis :: .width axisWidth :: axisLines v

variable [Pow α Nat] [Trigonometric α]

/-- The drawing of a scene so far, with one more figure. -/
def addFigure (v : Viewport α) (drawn : List Step × Stats) (f : Figure α) : List Step × Stats :=
  if f.visible then
    let (steps, stats) := trace v f.curve.points
    (drawn.1 ++ .color f.color :: .width curveWidth :: steps,
      { drawn.2 with
        curves := drawn.2.curves + 1
        segments := drawn.2.segments + stats.segments
        breaks := drawn.2.breaks + stats.breaks })
  else drawn

/-- The drawing of a scene. -/
def drawScene (v : Viewport α) (figures : List (Figure α)) : List Step × Stats :=
  figures.foldl (addFigure v) (drawAxes v, ⟨(axisLines v).length, 0, 0, 0⟩)

end PlotSheet.Drawing
