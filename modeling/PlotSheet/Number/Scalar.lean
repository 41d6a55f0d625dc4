import PlotSheet.Number.Binary
import PlotSheet.Number.Literal

/-!
# Scalars

Curves and their drawing are defined over any type of scalars: floating-point numbers when the
library runs, exact rational numbers when the geometry is reasoned about without rounding.

## Main definitions

* `Scalar`: arithmetic, order, reading of literals and rounding to integers
* `Trigonometric`: sine, cosine and tangent
* the instances for `Float` and `Rat`

Powers are those of a `Pow α Nat` instance; the rational ones are core's.
-/

namespace PlotSheet

/-- The arithmetic that curves, windows and drawing rest on. -/
class Scalar (α : Type) extends Add α, Sub α, Mul α, Div α, LT α, LE α where
  /-- The scalar of an integer. -/
  ofInt : Int → α
  /-- The scalar that a literal stands for. -/
  ofLiteral : Literal → α
  /-- The absolute value. -/
  abs : α → α
  /-- Neither infinite nor undefined. -/
  isFinite : α → Bool
  /-- The result of an operation without one. -/
  isUndefined : α → Bool
  /-- The nearest integer between two bounds, a half away from zero; zero for an undefined
  scalar. -/
  nearest : (lo hi : Int) → α → Int
  decidableLT : DecidableLT α
  decidableLE : DecidableLE α

instance Scalar.instDecidableLT {α : Type} [Scalar α] : DecidableLT α := Scalar.decidableLT

instance Scalar.instDecidableLE {α : Type} [Scalar α] : DecidableLE α := Scalar.decidableLE

/-- The functions that coordinates of parametric curves are built from. -/
class Trigonometric (α : Type) where
  sin : α → α
  cos : α → α
  tan : α → α

/-! ## Floating-point numbers -/

namespace Literal

/-- Past this power of ten every number is infinite; below its negative every number is zero. -/
def decimalRange : Int := 400

/-- The nearest floating-point number to `digits * 10 ^ scale`. -/
def decimalToFloat (digits : Nat) (scale : Int) : Float :=
  let size : Int := (Nat.toDigits 10 digits).length
  if digits = 0 then 0
  else if decimalRange < size + scale then 1 / 0
  else if size + scale < -decimalRange then 0
  else Float.ofScientific digits (decide (scale < 0)) scale.natAbs

/-- The nearest floating-point number to the value of a literal. -/
def toFloat (l : Literal) : Float :=
  let magnitude := match l.magnitude with
    | .decimal digits scale => decimalToFloat digits scale
    | .infinity => 1 / 0
    | .undefined => 0 / 0
  if l.negative then -magnitude else magnitude

/-- The value of a literal in exact arithmetic, which has no infinite and no undefined numbers:
those count as zero. -/
def toRat (l : Literal) : Rat :=
  let magnitude : Rat := match l.magnitude with
    | .decimal digits scale => (digits : Rat) * (10 : Rat) ^ scale
    | .infinity | .undefined => 0
  if l.negative then -magnitude else magnitude

end Literal

instance : Scalar Float where
  ofInt := Float.ofInt
  ofLiteral := Literal.toFloat
  abs := Float.abs
  isFinite := Float.isFinite
  isUndefined := Float.isNaN
  nearest := nearestWithin
  decidableLT := inferInstance
  decidableLE := inferInstance

instance : Trigonometric Float where
  sin := Float.sin
  cos := Float.cos
  tan := Float.tan

/-- Powers of floating-point numbers are those of the real exponent. -/
instance instPowFloatNat : Pow Float Nat where
  pow x n := Float.pow x (Float.ofNat n)

/-! ## Rational numbers -/

/-- The nearest integer of a rational number, a half away from zero. -/
def nearestInt (x : Rat) : Int :=
  if x < 0 then (x - 1 / 2).ceil else (x + 1 / 2).floor

instance : Scalar Rat where
  ofInt i := i
  ofLiteral := Literal.toRat
  abs := Rat.abs
  isFinite _ := true
  isUndefined _ := false
  nearest lo hi x := max lo (min hi (nearestInt x))
  decidableLT := inferInstance
  decidableLE := inferInstance

end PlotSheet
