import PlotSheet.Color
import PlotSheet.Plane.Viewport

/-!
# Drawings

A drawing is a list of steps: changes of the color and of the line width, and straight lines
between pixels.

## Main definitions

* `Pixel`, `pixel`: positions on a target
* `Step`: the steps of a drawing
* `lineCount`: the number of its lines
-/

namespace PlotSheet

/-- A position on a target. -/
structure Pixel where
  x : Int32
  y : Int32
  deriving DecidableEq, Repr

variable {α : Type} [Scalar α]

/-- The nearest pixel coordinate, kept within 32 bits. -/
def pixelCoordinate (x : α) : Int32 :=
  Int32.ofInt (Scalar.nearest Int32.minValue.toInt Int32.maxValue.toInt x)

/-- The pixel nearest to a point. -/
def pixel (p : Point α) : Pixel :=
  ⟨pixelCoordinate p.x, pixelCoordinate p.y⟩

namespace Drawing

/-- A step of a drawing. -/
inductive Step where
  | color (c : Rgb)
  | width (w : Float)
  | line (start stop : Pixel)
  deriving DecidableEq

/-- Whether a step draws a line. -/
def Step.isLine : Step → Bool
  | line .. => true
  | _ => false

/-- The text of a step. -/
def Step.describe : Step → String
  | color c => s!"color {c.red.toNat} {c.green.toNat} {c.blue.toNat}"
  | width w => s!"width {pointedText w}"
  | line p q => s!"line {p.x.toInt} {p.y.toInt} {q.x.toInt} {q.y.toInt}"

/-- The number of lines among the steps. -/
def lineCount (steps : List Step) : Nat :=
  steps.countP Step.isLine

end Drawing

end PlotSheet
