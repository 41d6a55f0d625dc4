import PlotSheet.Plane.Viewport

/-!
# Axes

Where the axes of the logical plane cross a target of pixels. An axis is visible if it crosses
strictly inside of `0 .. width` or `0 .. height`, whatever the offset of the viewport's rectangle.

## Main definitions

* `Axes`: the visible axes
* `Viewport.axes`: the axes in a viewport
-/

namespace PlotSheet

/-- The visible axes, in pixel coordinates. -/
structure Axes (α : Type) where
  /-- The row of the points with `y = 0`. -/
  horizontal : Option α
  /-- The column of the points with `x = 0`. -/
  vertical : Option α
  deriving DecidableEq

namespace Viewport

variable {α : Type} [Scalar α]

/-- The column of the points with `x = 0`. -/
def verticalAxis (v : Viewport α) : α :=
  Scalar.ofInt v.frame.x.toInt - v.x.start * v.scale.x

/-- The row of the points with `y = 0`. -/
def horizontalAxis (v : Viewport α) : α :=
  Scalar.ofInt v.frame.y.toInt + (v.y.start + v.y.extent) * v.scale.y

/-- The position if it lies strictly between zero and the length. -/
def inside? (position : α) (length : UInt32) : Option α :=
  if Scalar.ofInt 0 < position ∧ position < Scalar.ofInt length.toNat then some position else none

/-- The axes that are visible in a viewport. -/
def axes (v : Viewport α) : Axes α where
  horizontal := inside? v.horizontalAxis v.frame.height
  vertical := inside? v.verticalAxis v.frame.width

end Viewport

end PlotSheet
