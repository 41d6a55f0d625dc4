/-!
# The exact value of a floating-point number

A finite floating-point number is an integer times a power of two. This module reads the two off
the bits of the number, and rounds exactly to integers.

## Main definitions

* `Binary`: a sign, an integer and a power of two
* `Binary.ofFloat?`: the exact value of a finite number
* `Binary.nearest`: the nearest integer, a half away from zero
* `nearestWithin`: the nearest integer of any number, kept within bounds
-/

namespace PlotSheet

/-- The number `± mantissa * 2 ^ exponent`. -/
structure Binary where
  negative : Bool
  mantissa : Nat
  exponent : Int
  deriving DecidableEq, Repr

namespace Binary

/-- The number of values of the fraction field, which has fifty-two bits. -/
def fractionSize : Nat := 0x10000000000000

/-- The number of values of the exponent field, which has eleven bits. -/
def exponentSize : Nat := 0x800

/-- The exponent of the smallest positive number. -/
def leastExponent : Int := -1074

/-- Whether the sign bit is set. -/
def signBit (x : Float) : Bool :=
  x.toBits.toNat / (exponentSize * fractionSize) == 1

/-- The biased exponent field. -/
def exponentField (x : Float) : Nat :=
  x.toBits.toNat / fractionSize % exponentSize

/-- The fraction field. -/
def fractionField (x : Float) : Nat :=
  x.toBits.toNat % fractionSize

/-- The exact value of a finite number. An exponent field of zero has no hidden bit; one of all
ones marks infinities and undefined values. -/
def ofFloat? (x : Float) : Option Binary :=
  let field := exponentField x
  if field = exponentSize - 1 then none
  else if field = 0 then some ⟨signBit x, fractionField x, leastExponent⟩
  else some ⟨signBit x, fractionSize + fractionField x, leastExponent + (field - 1 : Nat)⟩

/-- The nearest natural number to `mantissa * 2 ^ exponent`, a half rounded up. -/
def nearestMagnitude (mantissa : Nat) (exponent : Int) : Nat :=
  if 0 ≤ exponent then mantissa * Nat.pow 2 exponent.toNat
  else
    let unit := Nat.pow 2 (-exponent).toNat
    (2 * mantissa + unit) / (2 * unit)

/-- The nearest integer, a half rounded away from zero. -/
def nearest (b : Binary) : Int :=
  let magnitude : Int := nearestMagnitude b.mantissa b.exponent
  if b.negative then -magnitude else magnitude

end Binary

/-- The nearest integer between `lo` and `hi`, a half rounded away from zero; zero for an
undefined value. -/
def nearestWithin (lo hi : Int) (x : Float) : Int :=
  match Binary.ofFloat? x with
  | some b => max lo (min hi b.nearest)
  | none =>
    if x.isNaN then 0
    else if Binary.signBit x then lo
    else hi

end PlotSheet
