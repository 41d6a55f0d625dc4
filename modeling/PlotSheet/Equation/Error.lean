import PlotSheet.Number.Literal
import PlotSheet.Number.Natural
import PlotSheet.Text.Span

/-!
# Equation errors

Why a text is no equation: a cause, and the span of the cleaned equation that is to blame.

## Main definitions

* `Cause`: what is wrong
* `Cause.message`: its wording
* `ParseError`: a cause and the blamed span
* `Failure`: an error of the text, or a fault of the library
-/

namespace PlotSheet.Equation

/-- Which part of the form of an equation is missing. -/
inductive FormError where
  | start
  | emptyBody
  | parts
  | xPart
  | yPart
  | argument
  deriving DecidableEq, Repr

/-- What is wrong with an exponent. -/
inductive ExponentError where
  /-- The text behind the caret is no natural number. -/
  | digits (e : NaturalError)
  /-- Something else than a caret follows `x`. -/
  | missingCaret
  /-- No list of coefficients could hold the term. -/
  | tooLarge
  deriving DecidableEq, Repr

/-- What is wrong with the range of a parameter. -/
inductive RangeError where
  | form
  | parameter
  | product
  | order
  deriving DecidableEq, Repr

/-- What is wrong with an equation. -/
inductive Cause where
  | form (e : FormError)
  | coefficient (e : LiteralError)
  | exponent (e : ExponentError)
  | constant (e : LiteralError)
  | range (e : RangeError)
  | unsupportedFunction
  | number (e : LiteralError)
  deriving DecidableEq, Repr

/-- The wording of a form error. -/
def FormError.message : FormError → String
  | start => "expected 'y=' at the start"
  | emptyBody => "nothing after 'y='"
  | parts => "expected 'x=...;y=...;a<t<b'"
  | xPart => "expected 'x='"
  | yPart => "expected 'y='"
  | argument => "expected the argument to end in 't)'"

/-- The wording of an exponent error. -/
def ExponentError.message : ExponentError → String
  | digits e => e.message
  | missingCaret => "expected '^' after 'x'"
  | tooLarge => "too large"

/-- The wording of a range error. -/
def RangeError.message : RangeError → String
  | form => "expected the form 'a<t<b'"
  | parameter => "the parameter must be 't'"
  | product => "a bound may contain at most one '*'"
  | order => "the upper bound must exceed the lower bound"

/-- The wording of a cause. -/
def Cause.message : Cause → String
  | form e => "malformed equation: " ++ e.message
  | coefficient e => "invalid coefficient: " ++ e.message
  | exponent e => "invalid exponent: " ++ e.message
  | constant e => "invalid constant: " ++ e.message
  | range e => "invalid range: " ++ e.message
  | unsupportedFunction => "unsupported function"
  | number e => "invalid number: " ++ e.message

/-- A cause, and the span of the equation that shows it. -/
structure ParseError where
  cause : Cause
  span : Span
  deriving DecidableEq, Repr

/-- Why no curve was read. -/
inductive Failure where
  /-- The text is no equation. -/
  | invalid (e : ParseError)
  /-- A promise of the library was broken. -/
  | fault (f : Fault)
  deriving DecidableEq, Repr

instance : MonadLift (Except Fault) (Except Failure) where
  monadLift
    | .ok a => .ok a
    | .error f => .error (.fault f)

/-- The failure that blames a span. -/
def blame {α : Type} (cause : Cause) (span : Span) : Except Failure α :=
  .error (.invalid ⟨cause, span⟩)

/-- The result with any error blamed on the given span. -/
def relocate {α : Type} (span : Span) : Except Failure α → Except Failure α
  | .error (.invalid e) => blame e.cause span
  | result => result

end PlotSheet.Equation
