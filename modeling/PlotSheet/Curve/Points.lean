import PlotSheet.Curve.Basic

/-!
# Sampling

A curve is drawn through sample points at regular values of its domain. The points come one by
one from a state machine, which stays at its end once the domain is exhausted; a domain may be
endless.

## Main definitions

* `SamplePoint`: a point, and whether lines may start and end there
* `Curve.point?`: the points of a curve by number
* `Sampling`, `Sampling.next`: the state machine
* `Sampling.take`, `Curve.points`, `Curve.ends`: what it yields, and whether that has an end
-/

namespace PlotSheet

/-- A point of a curve. -/
structure SamplePoint (α : Type) where
  x : α
  y : α
  /-- Whether a line may start at the point. -/
  canStart : Bool
  /-- Whether the line from the point before may end at the point. -/
  canEnd : Bool
  deriving DecidableEq

namespace SamplePoint

variable {α : Type}

/-- A point that is joined with its neighbours. -/
def ordinary (x y : α) : SamplePoint α :=
  ⟨x, y, true, true⟩

/-- A placeholder that is joined with nothing. -/
def gap [Scalar α] (x : α) : SamplePoint α :=
  ⟨x, Scalar.ofInt 0, false, false⟩

/-- Whether a point is joined with nothing. -/
def isGap (p : SamplePoint α) : Bool :=
  !p.canStart && !p.canEnd

end SamplePoint

variable {α : Type} [Scalar α] [Pow α Nat] [Trigonometric α]

/-! ## Points by number -/

/-- The point of a polynomial with the given number: a gap at excluded values, none past the end
of the domain. -/
def Polynomial.point? (p : Polynomial α) (n : Nat) : Option (SamplePoint α) :=
  let x := p.start + Scalar.ofInt n * p.step
  if p.start + p.extent < x then none
  else if p.exclusion.excludes x p.step then some (.gap x)
  else some (.ordinary x (p.value x))

/-- The point of a parametric curve with the given number, none past the end of the range. Values
at singular points are points like all others. -/
def Parametric.point? (p : Parametric α) (n : Nat) : Option (SamplePoint α) :=
  let t := p.start + Scalar.ofInt n * p.step
  if p.stop < t then none
  else some (.ordinary (p.x.value t) (p.y.value t))

/-- The point of a curve with the given number, none once the domain is exhausted. -/
def Curve.point? : Curve α → Nat → Option (SamplePoint α)
  | polynomial p, n => p.point? n
  | parametric p, n => p.point? n

/-! ## Points in sequence -/

/-- The state of a sampling. -/
structure Sampling (α : Type) where
  curve : Curve α
  /-- The number of the next point. -/
  index : Nat
  /-- Whether the end of the domain was reached. -/
  ended : Bool

/-- The sampling of a curve from its first point. -/
def Curve.sampling (c : Curve α) : Sampling α :=
  ⟨c, 0, false⟩

namespace Sampling

/-- The next point and the state after it. After the first `none` every answer is `none`. -/
def next (s : Sampling α) : Option (SamplePoint α) × Sampling α :=
  if s.ended then (none, s)
  else
    match s.curve.point? s.index with
    | some p => (some p, { s with index := s.index + 1 })
    | none => (none, { s with ended := true })

/-- Up to `limit` points behind those of `taken`, which are in reverse, and the state after
them. -/
def takeOnto (taken : List (SamplePoint α)) :
    (limit : Nat) → Sampling α → List (SamplePoint α) × Sampling α
  | 0, s => (taken.reverse, s)
  | limit + 1, s =>
    match s.next with
    | (some p, s') => takeOnto (p :: taken) limit s'
    | (none, s') => (taken.reverse, s')

/-- Up to `limit` points, and the state after them. -/
def take (limit : Nat) (s : Sampling α) : List (SamplePoint α) × Sampling α :=
  takeOnto [] limit s

end Sampling

/-- Points are numbered by machine words, so that no curve has more points than this. -/
def mostPoints : Nat := UInt64.size

/-- The points of a curve. -/
def Curve.points (c : Curve α) : List (SamplePoint α) :=
  (c.sampling.take mostPoints).1

/-- Whether a curve has a last point. -/
def Curve.ends (c : Curve α) : Bool :=
  (c.sampling.take mostPoints).2.ended

end PlotSheet
