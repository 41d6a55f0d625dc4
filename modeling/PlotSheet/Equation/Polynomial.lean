import PlotSheet.Curve.Polynomial
import PlotSheet.Equation.Factor

/-!
# Polynomial equations

The equations `y=` followed by signed terms, each a constant or a factor before `x` with an
optional exponent. Terms of one exponent are added up in their order. How many coefficients memory
can be set aside for is not up to the library, so reading takes that number.

## Main definitions

* `Term`, `readTerm`: a term and its reading
* `accumulate`, `dense`: from terms to the list of coefficients
* `readPolynomial`: the polynomial of an equation
-/

namespace PlotSheet.Equation

/-- The term `factor * x ^ exponent`. -/
structure Term where
  exponent : Nat
  factor : Literal
  deriving DecidableEq, Repr

/-- The exponent that the text behind `x` spells: one for no text. The greatest machine word is
refused, since a list of coefficients is one longer than its greatest exponent. -/
def readExponent (power : Span) : Except Failure Nat := do
  let exponent ←
    if power.isEmpty then pure 1
    else
      match ← power.dropPrefix? ['^'] with
      | none => blame (.exponent .missingCaret) power
      | some digits =>
        match Natural.read 10 wordSize (← digits.text) with
        | .ok n => pure n
        | .error e => blame (.exponent (.digits e)) digits
  if exponent = wordSize - 1 then blame (.exponent .tooLarge) power
  else return exponent

/-- The term that a span spells. -/
def readTerm (term : Span) : Except Failure Term := do
  match ← term.cut? 'x' with
  | none => return ⟨0, ← readLiteral .constant term⟩
  | some (coefficient, power) =>
    let factor ← readFactor .coefficient coefficient
    return ⟨← readExponent power, factor⟩

variable {α : Type} [Scalar α]

/-- Sums of coefficients by exponent, in order of first appearance, with one more term. -/
def accumulate (c : Coefficient α) (exponent : Nat) :
    List (Nat × Coefficient α) → List (Nat × Coefficient α)
  | [] => [(exponent, c)]
  | (e, sum) :: rest =>
    if e = exponent then (e, sum + c) :: rest
    else (e, sum) :: accumulate c exponent rest

/-- The sums of the terms that the spans spell, with those already at hand. -/
def readTerms (sums : List (Nat × Coefficient α)) :
    List Span → Except Failure (List (Nat × Coefficient α))
  | [] => return sums
  | span :: rest => do
    let term ← readTerm span
    readTerms (accumulate (.ofLiteral term.factor) term.exponent sums) rest

/-- The length of a list of coefficients that holds all the exponents. -/
def denseLength : List (Nat × Coefficient α) → Except Fault Nat
  | [] => return 1
  | (exponent, _) :: rest => do
    return max (← wordSum exponent 1) (← denseLength rest)

/-- The list with the given sums at their exponents. -/
def fill (coefficients : List (Coefficient α)) :
    List (Nat × Coefficient α) → Except Fault (List (Coefficient α))
  | [] => return coefficients
  | (exponent, sum) :: rest => do
    fill (← store coefficients exponent sum) rest

/-- The list of coefficients with the given sums, zero where there is none. Memory is set aside for
at most `most` of them. -/
def dense (most : Nat) (body : Span) (sums : List (Nat × Coefficient α)) :
    Except Failure (List (Coefficient α)) := do
  let length ← denseLength sums
  if most < length then blame (.exponent .tooLarge) body
  else fill (List.replicate length (.ofInt 0)) sums

/-- The first value of the domain of an equation. -/
def defaultStart : α := Scalar.ofInt (-10)

/-- The step of the domain of an equation, and of a parameter: a tenth. -/
def defaultStep : α := Scalar.ofLiteral ⟨false, .decimal 1 (-1)⟩

/-- The extent of the domain of an equation. -/
def defaultExtent : α := Scalar.ofInt 20

/-- What follows the start of a polynomial equation, if it starts so. -/
def body? (source : Span) : Except Fault (Option Span) := do
  let some rest ← source.dropPrefix? ['y'] | return none
  rest.dropPrefix? ['=']

/-- The polynomial of an equation, where memory is set aside for at most `most` coefficients. -/
def readPolynomial (most : Nat) (source : Span) : Except Failure (Polynomial α) := do
  let some body ← body? source | blame (.form .start) source
  if body.isEmpty then blame (.form .emptyBody) source
  else
    let sums ← readTerms [] (← body.terms)
    return ⟨← dense most body sums, defaultStart, defaultStep, defaultExtent, .never⟩

end PlotSheet.Equation
