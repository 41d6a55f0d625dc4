import PlotSheet.Equation.Error

/-!
# Factors

A factor before `x` or a function: a literal, or a bare sign or nothing at all for plus or minus
one.

## Main definitions

* `readLiteral`, `readFactor`: the literal that a span spells
-/

namespace PlotSheet.Equation

/-- The literal that a span spells. -/
def readLiteral (cause : LiteralError → Cause) (span : Span) : Except Failure Literal := do
  match Literal.read (← span.text) with
  | .ok l => return l
  | .error e => blame (cause e) span

/-- The literal of one or of minus one. -/
def unitLiteral (negative : Bool) : Literal :=
  ⟨negative, .decimal 1 0⟩

/-- The factor that a span spells. -/
def readFactor (cause : LiteralError → Cause) (span : Span) : Except Failure Literal := do
  match ← span.text with
  | [] | ['+'] => return unitLiteral false
  | ['-'] => return unitLiteral true
  | _ => readLiteral cause span

end PlotSheet.Equation
