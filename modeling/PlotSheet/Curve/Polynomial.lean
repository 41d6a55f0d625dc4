import PlotSheet.Number.Scalar

/-!
# Polynomials

A polynomial with the domain over which it is drawn: from `start` in steps up to
`start + extent`. Values near an excluded one are left undrawn.

## Main definitions

* `Coefficient`: a number that keeps its sign when its value is undefined
* `Exclusion`: the values around which nothing is drawn
* `Polynomial`: coefficients by ascending exponent, and a domain
* `Polynomial.value`: the sum of the terms
-/

namespace PlotSheet

/-- A number that keeps its sign when its value is undefined, so that it can be written with the
sign it was given. -/
structure Coefficient (α : Type) where
  value : α
  /-- The sign of an undefined value is a minus; unused for all others. -/
  minus : Bool
  deriving DecidableEq

namespace Coefficient

variable {α : Type} [Scalar α]

/-- The coefficient that a literal stands for. -/
def ofLiteral (l : Literal) : Coefficient α :=
  ⟨Scalar.ofLiteral l, l.negative && l.magnitude == .undefined⟩

/-- The coefficient of an integer. -/
def ofInt (i : Int) : Coefficient α :=
  ⟨Scalar.ofInt i, false⟩

/-- The sign of an undefined sum is that of its undefined summand, of the second if both are
undefined, and a minus if none is. -/
def sumMinus (a b : Coefficient α) : Bool :=
  if Scalar.isUndefined b.value then b.minus
  else if Scalar.isUndefined a.value then a.minus
  else Scalar.isUndefined (a.value + b.value)

/-- The sum of two coefficients. -/
def add (a b : Coefficient α) : Coefficient α :=
  ⟨a.value + b.value, sumMinus a b⟩

instance : Add (Coefficient α) := ⟨add⟩

@[simp] theorem value_add (a b : Coefficient α) : (a + b).value = a.value + b.value := rfl

@[simp] theorem value_ofLiteral (l : Literal) :
    (ofLiteral l : Coefficient α).value = Scalar.ofLiteral l := rfl

@[simp] theorem value_ofInt (i : Int) : (ofInt i : Coefficient α).value = Scalar.ofInt i := rfl

end Coefficient

/-- The values around which nothing is drawn. -/
inductive Exclusion (α : Type) where
  | never
  | near (points : List α)
  deriving DecidableEq

/-- A value is excluded if it lies within half a step of an excluded point. -/
def Exclusion.excludes {α : Type} [Scalar α] (e : Exclusion α) (x step : α) : Bool :=
  match e with
  | .never => false
  | .near points =>
    points.any fun p => Scalar.abs (x - p) < Scalar.abs step / Scalar.ofInt 2

/-- The curve `y = Σ coefficients[i] * x ^ i`, drawn from `start` in steps up to
`start + extent`. -/
structure Polynomial (α : Type) where
  coefficients : List (Coefficient α)
  start : α
  step : α
  extent : α
  exclusion : Exclusion α
  deriving DecidableEq

namespace Polynomial

variable {α : Type}

/-- The highest exponent; zero for an empty list of coefficients. -/
def degree (p : Polynomial α) : Nat :=
  p.coefficients.length - 1

/-- The polynomial left undrawn around the given values. -/
def avoiding (p : Polynomial α) (points : List α) : Polynomial α :=
  { p with exclusion := .near points }

variable [Scalar α] [Pow α Nat]

/-- A partial sum with the terms from the given exponent on added in ascending order. -/
def addTerms (x : α) : (sum : α) → (exponent : Nat) → List (Coefficient α) → α
  | sum, _, [] => sum
  | sum, exponent, c :: rest => addTerms x (sum + c.value * x ^ exponent) (exponent + 1) rest

/-- The sum of the terms at `x`, added in ascending order of their exponents. -/
def value (p : Polynomial α) (x : α) : α :=
  addTerms x (Scalar.ofInt 0) 0 p.coefficients

end Polynomial

end PlotSheet
