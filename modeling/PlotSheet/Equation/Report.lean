import PlotSheet.Curve.TrigFunction
import PlotSheet.Equation.Error
import PlotSheet.Text.Similarity

/-!
# Error reports

The report of an equation error: the cleaned equation with carets under the blamed span, the
wording of the cause, and a note on how to mend it. A note may name a function with a name similar
to a word of the equation, where similarity is measured as the caller asks.

## Main definitions

* `calledWord`: the letters of the first call in a text
* `note?`: the note on a cause
* `report`: the whole report
-/

namespace PlotSheet.Equation

/-- The first run of ASCII letters before the first parenthesis of a text; empty if there is no
parenthesis. -/
def calledWord (text : List Char) : List Char :=
  if '(' ∈ text then
    ((text.takeWhile (· != '(')).dropWhile (!·.isAlpha)).takeWhile Char.isAlpha
  else []

/-- The note on an unsupported call: the function with the most similar name, or else all of
them. -/
def callNote (measure : Text.Measure) (text : List Char) : String :=
  let word := calledWord text
  let names := TrigFunction.all.map TrigFunction.name
  let anyOf := "each coordinate must use exactly one of " ++ String.intercalate ", " names
  if word.isEmpty then anyOf
  else
    match Text.closest? measure (String.ofList word) names with
    | some name => s!"function '{name}' has a similar name"
    | none => anyOf

/-- The note on a cause, given the text of the blamed span. -/
def note? (measure : Text.Measure) (text : List Char) : Cause → Option String
  | .form _ => some "equations look like 'y=3x^2-2x+1' or 'x=2cos(t);y=sin(t);0<t<2pi'"
  | .coefficient _ => some "coefficients are written right before 'x', so '2*x' would be '2x'"
  | .exponent _ => some "exponents are non-negative integers after '^', like 'x^2'"
  | .constant _ => none
  | .range _ => some "the range looks like '0<t<2pi'"
  | .unsupportedFunction => some (callNote measure text)
  | .number _ => some "parsing as floating point number"

/-- The report of an error. -/
def report (measure : Text.Measure) (e : ParseError) : Except Fault String := do
  let note := match note? measure (← e.span.text) e.cause with
    | some note => s!"note: {note}\n"
    | none => ""
  return (← e.span.underline) ++ s!"parse error: {e.cause.message}\n" ++ note

end PlotSheet.Equation
