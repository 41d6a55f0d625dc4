import PlotSheet.Number.Scalar

/-!
# Trigonometric functions

The six functions that a coordinate of a parametric curve can be built from. Three of them are
reciprocals of the others: they divide at singular points as everywhere else.

## Main definitions

* `TrigFunction`: the functions
* `TrigFunction.all`, `TrigFunction.name`: their order and their names
* `TrigFunction.apply`: their values
-/

namespace PlotSheet

/-- A function of a parametric coordinate. -/
inductive TrigFunction where
  | sin
  | cos
  | tan
  | sec
  | csc
  | cot
  deriving DecidableEq, Repr

namespace TrigFunction

/-- The functions in the order in which they are listed. -/
def all : List TrigFunction := [sin, cos, tan, sec, csc, cot]

/-- The name of a function in equations. -/
def name : TrigFunction → String
  | sin => "sin"
  | cos => "cos"
  | tan => "tan"
  | sec => "sec"
  | csc => "csc"
  | cot => "cot"

variable {α : Type} [Scalar α] [Trigonometric α]

/-- The value of a function. -/
def apply : TrigFunction → α → α
  | sin, x => Trigonometric.sin x
  | cos, x => Trigonometric.cos x
  | tan, x => Trigonometric.tan x
  | sec, x => Scalar.ofInt 1 / Trigonometric.cos x
  | csc, x => Scalar.ofInt 1 / Trigonometric.sin x
  | cot, x => Scalar.ofInt 1 / Trigonometric.tan x

theorem mem_all (f : TrigFunction) : f ∈ all := by
  cases f <;> decide

end TrigFunction

end PlotSheet
