import PlotSheet.Curve.Polynomial
import PlotSheet.Curve.Parametric

/-!
# Curves

What an equation describes: a polynomial or a parametric curve.

## Main definitions

* `Curve`: the two kinds of curves
* `Curve.excludes`: the values at which a curve is left undrawn
-/

namespace PlotSheet

/-- A curve that can be sampled and drawn. -/
inductive Curve (α : Type) where
  | polynomial (p : Polynomial α)
  | parametric (p : Parametric α)
  deriving DecidableEq

namespace Curve

variable {α : Type}

/-- The curve left undrawn around the given values. Parametric curves have no exclusions. -/
def avoiding (points : List α) : Curve α → Curve α
  | polynomial p => polynomial (p.avoiding points)
  | parametric p => parametric p

/-- Whether the curve is left undrawn at a value of its domain. -/
def excludes [Scalar α] : Curve α → α → Bool
  | polynomial p, x => p.exclusion.excludes x p.step
  | parametric _, _ => false

end Curve

end PlotSheet
