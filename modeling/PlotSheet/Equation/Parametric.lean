import PlotSheet.Curve.Parametric
import PlotSheet.Equation.Pi
import PlotSheet.Equation.Polynomial

/-!
# Parametric equations

The equations `x=…;y=…;a<t<b` whose coordinates are one call of a trigonometric function each,
with factors before the function and before `t`. A bound is a literal or the product of two, with
`pi` spelt out.

## Main definitions

* `callCount`, `firstCall?`: the calls in a text
* `readCoordinate`, `readRange`: the parts of an equation
* `readParametric`: the curve of an equation
-/

namespace PlotSheet.Equation

/-! ## Coordinates -/

/-- The start of a call of a function. -/
def callPattern (f : TrigFunction) : List Char :=
  f.name.toList ++ ['(']

/-- The number of calls in a text. -/
def callCount (text : List Char) : Nat :=
  TrigFunction.all.foldr (fun f count => Text.occurrences (callPattern f) text + count) 0

/-- The first function that is called in a text, and the byte offset of its first call. -/
def firstCall? (text : List Char) : Option (TrigFunction × Nat) :=
  TrigFunction.all.findSome? fun f => (Text.find? (callPattern f) text).map fun i => (f, i)

/-- The only call in a text. -/
def onlyCall? (text : List Char) : Option (TrigFunction × Nat) :=
  if callCount text = 1 then firstCall? text else none

variable {α : Type} [Scalar α]

/-- The factor before the parameter. Whatever starts with `t` counts as one. -/
def readInner (inner : Span) : Except Failure Literal := do
  if ['t'].isPrefixOf (← inner.text) then return unitLiteral false
  else readFactor .number inner

/-- The coordinate that a span spells: the only call in it, with what stands around it. -/
def readCoordinate (expression : Span) : Except Failure (Coordinate α) := do
  match onlyCall? (← expression.text) with
  | none => blame .unsupportedFunction expression
  | some (f, i) =>
    let (outer, call) ← expression.splitAt i
    let argument ← call.upTo (Text.byteLength (callPattern f)) call.length
    let some inner ← argument.dropSuffix? ['t', ')'] | blame (.form .argument) argument
    let outerFactor ← readFactor .number outer
    let innerFactor ← readInner inner
    return ⟨f, Scalar.ofLiteral outerFactor, Scalar.ofLiteral innerFactor⟩

/-! ## Ranges -/

/-- A literal, or the product of exactly two. -/
def readProduct (bound : Span) : Except Failure α := do
  match ← bound.splitOn '*' with
  | [factor] => return Scalar.ofLiteral (← readLiteral .number factor)
  | [left, right] =>
    let l ← readLiteral .number left
    let r ← readLiteral .number right
    return Scalar.ofLiteral l * Scalar.ofLiteral r
  | _ => blame (.range .product) bound

/-- The value of a bound. Places in a spelt-out text are none of the equation, so there the whole
bound is blamed. -/
def readBound (bound : Span) : Except Failure α := do
  let text ← bound.text
  let expanded := spellPi text
  if expanded = text then readProduct bound
  else relocate bound (readProduct (.whole expanded))

/-- The two ends of a range. -/
def readRange (range : Span) : Except Failure (α × α) := do
  match ← range.splitOn '<' with
  | [lower, parameter, upper] =>
    if (← parameter.text) ≠ ['t'] then blame (.range .parameter) parameter
    else
      let start ← readBound lower
      let stop ← readBound upper
      if stop ≤ start then blame (.range .order) range
      else return (start, stop)
  | _ => blame (.range .form) range

/-! ## Equations -/

/-- The parametric curve of an equation. -/
def readParametric (source : Span) : Except Failure (Parametric α) := do
  match ← source.splitOn ';' with
  | [xPart, yPart, range] =>
    let some xExpression ← xPart.dropPrefix? ['x', '='] | blame (.form .xPart) xPart
    let some yExpression ← yPart.dropPrefix? ['y', '='] | blame (.form .yPart) yPart
    let x ← readCoordinate xExpression
    let y ← readCoordinate yExpression
    let (start, stop) ← readRange range
    return ⟨x, y, start, stop, defaultStep⟩
  | _ => blame (.form .parts) source

end PlotSheet.Equation
