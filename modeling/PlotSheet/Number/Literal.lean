/-!
# Number literals

The grammar of number literals, apart from any number type: an optional sign, then one of the
words `inf`, `infinity` and `nan` in any case, or decimal digits with at most one point among or
beside them and an optional power of ten after `e` or `E`.

## Main definitions

* `Literal`: what a literal says
* `Literal.read`: the literal that a whole text spells
* `LiteralError`: why a text spells none
-/

namespace PlotSheet

/-- The unsigned part of a literal. -/
inductive Magnitude where
  /-- The number `digits * 10 ^ scale`. -/
  | decimal (digits : Nat) (scale : Int)
  | infinity
  | undefined
  deriving DecidableEq, Repr

/-- A number as it is written. -/
structure Literal where
  /-- Whether a minus sign is written. -/
  negative : Bool
  magnitude : Magnitude
  deriving DecidableEq, Repr

/-- Why a text is no literal. -/
inductive LiteralError where
  | empty
  | malformed
  deriving DecidableEq, Repr

/-- The wording of a literal error. -/
def LiteralError.message : LiteralError → String
  | empty => "cannot parse float from empty string"
  | malformed => "invalid float literal"

namespace Literal

/-- The value of a digit string. -/
def digitsValue (digits : List Char) : Nat :=
  digits.foldl (fun value c => 10 * value + (c.toNat - '0'.toNat)) 0

/-- The sign that a text starts with, and the rest. -/
def splitSign : List Char → Bool × List Char
  | '-' :: rest => (true, rest)
  | '+' :: rest => (false, rest)
  | text => (false, text)

/-- The whole text as an optional exponent part. -/
def readExponent : List Char → Option Int
  | [] => some 0
  | c :: rest =>
    if c == 'e' || c == 'E' then
      let (negative, digits) := splitSign rest
      if digits.isEmpty || !digits.all Char.isDigit then none
      else if negative then some (-(digitsValue digits : Int))
      else some (digitsValue digits)
    else none

/-- The fraction digits of a text that starts behind the integer digits, and the rest. -/
def splitFraction : List Char → List Char × List Char
  | '.' :: rest => (rest.takeWhile Char.isDigit, rest.dropWhile Char.isDigit)
  | text => ([], text)

/-- The whole text as an unsigned decimal. -/
def readDecimal (text : List Char) : Option Magnitude :=
  let whole := text.takeWhile Char.isDigit
  let (fraction, rest) := splitFraction (text.dropWhile Char.isDigit)
  if whole.isEmpty && fraction.isEmpty then none
  else
    (readExponent rest).map fun exponent =>
      .decimal (digitsValue (whole ++ fraction)) (exponent - fraction.length)

/-- The whole text as the unsigned part of a literal. -/
def readMagnitude (text : List Char) : Option Magnitude :=
  let word := text.map Char.toLower
  if word = "inf".toList || word = "infinity".toList then some .infinity
  else if word = "nan".toList then some .undefined
  else readDecimal text

/-- The literal that a whole text spells. -/
def read (text : List Char) : Except LiteralError Literal :=
  if text.isEmpty then .error .empty
  else
    let (negative, unsigned) := splitSign text
    match readMagnitude unsigned with
    | some magnitude => .ok ⟨negative, magnitude⟩
    | none => .error .malformed

end Literal

end PlotSheet
