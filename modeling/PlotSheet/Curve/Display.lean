import PlotSheet.Curve.Basic
import PlotSheet.Number.Layout

/-!
# Curves as text

The canonical equation of a curve: terms by descending exponent, without those whose coefficient
is zero, each sign set off by blanks.

## Main definitions

* `Polynomial.display`, `Parametric.display`, `Curve.display`
-/

namespace PlotSheet

namespace Coefficient

/-- Whether a coefficient is written with a minus. -/
def isMinus (c : Coefficient Float) : Bool :=
  if c.value.isNaN then c.minus else Binary.signBit c.value

end Coefficient

namespace Polynomial

/-- A term without its sign. A magnitude of one is left out before `x`. -/
def displayTerm (exponent : Nat) (magnitude : Float) : List Char :=
  let factor := Layout.plain.write magnitude
  match exponent with
  | 0 => factor
  | 1 => (if magnitude == 1 then [] else factor) ++ ['x']
  | n => (if magnitude == 1 then [] else factor) ++ 'x' :: '^' :: Layout.digits n

/-- What is written ahead of a term: its sign between blanks, or for the leading term only a
minus. -/
def displaySign (leading minus : Bool) : List Char :=
  match leading, minus with
  | true, true => " -".toList
  | true, false => " ".toList
  | false, true => " - ".toList
  | false, false => " + ".toList

/-- The terms with the given exponents, `leading` if none is written ahead of them. -/
def displayTerms (leading : Bool) : List (Nat × Coefficient Float) → List Char
  | [] => if leading then " 0".toList else []
  | (exponent, c) :: rest =>
    if c.value == 0 then displayTerms leading rest
    else
      displaySign leading c.isMinus ++ displayTerm exponent c.value.abs ++ displayTerms false rest

/-- The equation of a polynomial. -/
def display (p : Polynomial Float) : List Char :=
  "y =".toList ++
    displayTerms true ((List.range p.coefficients.length).zip p.coefficients).reverse

end Polynomial

/-- The expression of a coordinate. -/
def Coordinate.display (c : Coordinate Float) : List Char :=
  Layout.plain.write c.outer ++ c.function.name.toList ++
    '(' :: Layout.plain.write c.inner ++ "t)".toList

/-- The equations of a parametric curve. -/
def Parametric.display (p : Parametric Float) : List Char :=
  "x = ".toList ++ p.x.display ++ "; y = ".toList ++ p.y.display ++ "; ".toList ++
    Layout.plain.write p.start ++ " < t < ".toList ++ Layout.plain.write p.stop

/-- The equation of a curve. -/
def Curve.display : Curve Float → String
  | polynomial p => String.ofList p.display
  | parametric p => String.ofList p.display

end PlotSheet
