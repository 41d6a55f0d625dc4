/-!
# The number pi in bounds

The bounds of a range may be written with the word `pi` or the letter `π`. Both stand for the
digits of the number, as a further factor if a digit or a point is written right before them.

## Main definitions

* `spellPi`: a text with its pis spelt out
-/

namespace PlotSheet.Equation

/-- The shortest decimal of the floating-point number nearest to π. -/
def piDigits : List Char := "3.141592653589793".toList

/-- Spelt-out digits, as a factor if a digit or a point precedes them. -/
def piFactor (afterDigit : Bool) : List Char :=
  if afterDigit then '*' :: piDigits else piDigits

/-- The text with its pis spelt out, given whether a digit or a point precedes it. The digits of π
end in a digit themselves. -/
def spellPiAfter : (afterDigit : Bool) → List Char → List Char
  | _, [] => []
  | afterDigit, 'p' :: 'i' :: rest => piFactor afterDigit ++ spellPiAfter true rest
  | afterDigit, 'π' :: rest => piFactor afterDigit ++ spellPiAfter true rest
  | _, c :: rest => c :: spellPiAfter (c.isDigit || c == '.') rest

/-- The text with its pis spelt out. -/
def spellPi (text : List Char) : List Char :=
  spellPiAfter false text

end PlotSheet.Equation
