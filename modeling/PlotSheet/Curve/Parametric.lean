import PlotSheet.Curve.TrigFunction

/-!
# Parametric curves

Curves whose two coordinates are trigonometric functions of a parameter `t`, drawn from `start` in
steps up to `stop`.

## Main definitions

* `Coordinate`: `outer * function (inner * t)`
* `Parametric`: two coordinates and the range of the parameter
-/

namespace PlotSheet

/-- The coordinate `outer * function (inner * t)`. -/
structure Coordinate (α : Type) where
  function : TrigFunction
  outer : α
  inner : α
  deriving DecidableEq

/-- A curve with a trigonometric function for each coordinate. -/
structure Parametric (α : Type) where
  x : Coordinate α
  y : Coordinate α
  start : α
  stop : α
  step : α
  deriving DecidableEq

/-- The value of a coordinate at a parameter. -/
def Coordinate.value {α : Type} [Scalar α] [Trigonometric α] (c : Coordinate α) (t : α) : α :=
  c.outer * c.function.apply (c.inner * t)

end PlotSheet
