import PlotSheet.Drawing.Scene

/-!
# Canvases

A canvas draws into a document through a backend: a white rectangle over the whole canvas, then one
line after the other, in the color and the width set last before it. What the document looks like,
and whether drawing on it fails, is up to the backend. The first line that fails is kept as the
reason why the document cannot be finished, and nothing is drawn behind it.

## Main definitions

* `Backend`: how documents are written
* `Canvas`, `Canvas.start`: a document that is being drawn
* `Canvas.draw`: the document with one more step
* `Canvas.finish`: its text and the number of its lines, or why it failed
-/

namespace PlotSheet.Drawing

/-- A backend that writes documents. What can fail answers with the wording of the reason. -/
structure Backend where
  /-- A document that is being written. -/
  Document : Type
  /-- A document of the given size with nothing drawn. -/
  start : (width height : UInt32) → Document
  /-- The document with a filled rectangle between two corners. -/
  rectangle : Document → (corner opposite : Pixel) → (fill : Rgb) → Except String Document
  /-- The document with one more line. -/
  line : Document → (start stop : Pixel) → (color : Rgb) → (width : UInt32) →
    Except String Document
  /-- The document with its end. -/
  present : Document → Except String Document
  /-- The text of the document so far. -/
  text : Document → String

/-- A document that is being drawn through a backend. -/
structure Canvas (b : Backend) where
  document : b.Document
  /-- The color of the next line. -/
  color : Rgb
  /-- The width of the next line. -/
  lineWidth : UInt32
  /-- The number of lines that were drawn. -/
  lines : Nat
  /-- Why a line failed, if one did. -/
  failed : Option String

namespace Canvas

variable {b : Backend}

/-- A document with a white rectangle over the whole canvas. Lines are black and one pixel wide
until set otherwise. -/
def start (b : Backend) (width height : UInt32) : Except String (Canvas b) := do
  let document ← b.rectangle (b.start width height) ⟨0, 0⟩ ⟨farEnd width, farEnd height⟩ .white
  return ⟨document, .black, 1, 0, none⟩

/-- The line width in whole pixels, the nearest one, kept within 32 bits. -/
def wholeWidth (w : Float) : UInt32 :=
  UInt32.ofNat (Scalar.nearest 0 (UInt32.size - 1 : Nat) w).toNat

/-- The document with one more line, unless a line failed. -/
def line (c : Canvas b) (start stop : Pixel) : Canvas b :=
  match c.failed with
  | some _ => c
  | none =>
    match b.line c.document start stop c.color c.lineWidth with
    | .ok document => { c with document, lines := c.lines + 1 }
    | .error reason => { c with failed := some reason }

/-- The document with one more step. -/
def draw (c : Canvas b) : Step → Canvas b
  | .color color => { c with color }
  | .width w => { c with lineWidth := wholeWidth w }
  | .line start stop => c.line start stop

/-- The document with all the steps. -/
def drawAll (c : Canvas b) (steps : List Step) : Canvas b :=
  steps.foldl draw c

/-- The text of the finished document and the number of its lines. -/
def finish (c : Canvas b) : Except String (String × Nat) :=
  match c.failed with
  | some reason => .error reason
  | none => do
    let document ← b.present c.document
    return (b.text document, c.lines)

end Canvas

end PlotSheet.Drawing
