import PlotSheet.Curve.Basic
import PlotSheet.Equation.Parametric
import PlotSheet.Text.Blank

/-!
# Equations

An equation is read without its white space. A text with both a semicolon and a less-than sign is
parametric, every other one polynomial.

## Main definitions

* `parse`: the curve that a text describes
-/

namespace PlotSheet.Equation

variable {α : Type} [Scalar α]

/-- Whether an equation is read as a parametric one. -/
def isParametric (source : Span) : Except Fault Bool := do
  return (← source.contains ';') && (← source.contains '<')

/-- The curve of a cleaned equation, where memory is set aside for at most `most` coefficients. -/
def readCurve (most : Nat) (source : Span) : Except Failure (Curve α) := do
  if ← isParametric source then return .parametric (← readParametric source)
  else return .polynomial (← readPolynomial most source)

/-- The curve that a text describes, where memory is set aside for at most `most` coefficients. -/
def parse (most : Nat) (text : String) : Except Failure (Curve α) :=
  readCurve most (.whole (Text.withoutBlanks text.toList))

end PlotSheet.Equation
