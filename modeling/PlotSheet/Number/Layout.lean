import PlotSheet.Number.Shortest

/-!
# Number texts

A number is written with the digits of its shortest decimal. A layout says which numbers are
written positionally, and whether an integral number shows a fraction.

## Main definitions

* `Layout`: the decisions of a number format
* `Layout.write`: the text of a number
* `Layout.plain`: never an exponent, no fraction for an integral number
* `Layout.pointed`: an exponent for very large and very small numbers, `.0` for integral ones
-/

namespace PlotSheet

/-- The decisions of a number format. -/
structure Layout where
  /-- Whether a number whose leading digit counts powers `10 ^ exponent` has no exponent part. -/
  isPositional : (exponent : Int) → Bool
  /-- Whether a positional integral number ends in `.0`. -/
  showsFraction : Bool

namespace Layout

/-- The digits of a natural number. -/
def digits (n : Nat) : List Char :=
  Nat.toDigits 10 n

/-- The decimal digits of an integer, behind a minus sign if it is negative. -/
def integer (i : Int) : List Char :=
  if i < 0 then '-' :: digits i.natAbs else digits i.natAbs

/-- The positional text of `number * 10 ^ scale`. -/
def positional (layout : Layout) (number : Nat) (scale : Int) : List Char :=
  let text := digits number
  if 0 ≤ scale then
    text ++ List.replicate scale.toNat '0' ++ (if layout.showsFraction then ['.', '0'] else [])
  else
    let places := (-scale).toNat
    if places < text.length then
      text.take (text.length - places) ++ '.' :: text.drop (text.length - places)
    else '0' :: '.' :: List.replicate (places - text.length) '0' ++ text

/-- The text of `number * 10 ^ scale` as one digit, the others behind a point, and the power of
ten. -/
def scientific (number : Nat) (scale : Int) : List Char :=
  let text := digits number
  let exponent := scale + (text.length - 1 : Nat)
  text.take 1 ++ (if text.length = 1 then [] else '.' :: text.drop 1) ++ 'e' :: integer exponent

/-- The text of a finite number without its sign. -/
def magnitude (layout : Layout) (b : Binary) : List Char :=
  if b.mantissa = 0 then layout.positional 0 0
  else
    let (number, scale) := Shortest.shortest b.mantissa b.exponent
    let exponent := scale + ((digits number).length - 1 : Nat)
    if layout.isPositional exponent then layout.positional number scale
    else scientific number scale

/-- The text of a number. An undefined value has no sign. -/
def write (layout : Layout) (x : Float) : List Char :=
  match Binary.ofFloat? x with
  | some b => (if b.negative then ['-'] else []) ++ layout.magnitude b
  | none =>
    if x.isNaN then "NaN".toList
    else if Binary.signBit x then "-inf".toList
    else "inf".toList

/-- Curves and points: never an exponent, no fraction for an integral number. -/
def plain : Layout := ⟨fun _ => true, false⟩

/-- Windows: no exponent from `10 ^ -4` up to `10 ^ 16`, and `.0` for integral numbers. -/
def pointed : Layout := ⟨fun exponent => -4 ≤ exponent && exponent < 16, true⟩

end Layout

/-- The text of a number on curves and points. -/
def plainText (x : Float) : String :=
  String.ofList (Layout.plain.write x)

/-- The text of a number in windows. -/
def pointedText (x : Float) : String :=
  String.ofList (Layout.pointed.write x)

end PlotSheet
