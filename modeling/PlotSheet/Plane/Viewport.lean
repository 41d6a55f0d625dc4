import PlotSheet.Number.Layout
import PlotSheet.Number.Scalar

/-!
# Viewports

A viewport maps a box of the logical plane onto a rectangle of pixels whose rows grow downward.

## Main definitions

* `Point`, `Interval`, `Frame`, `Viewport`
* `Viewport.project`: the affine map from the plane to pixel coordinates
* `Viewport.IsValid`: finite ranges that are not empty, and a rectangle with an area
* `Viewport.describe`, `Viewport.describeLines`: the text of a viewport, on one line or several
-/

namespace PlotSheet

/-- A point of a plane. -/
structure Point (α : Type) where
  x : α
  y : α
  deriving DecidableEq, Repr

/-- A range of scalars. -/
structure Interval (α : Type) where
  start : α
  stop : α
  deriving DecidableEq, Repr

/-- A rectangle of pixels. -/
structure Frame where
  x : Int32
  y : Int32
  width : UInt32
  height : UInt32
  deriving DecidableEq, Repr

/-- The logical ranges that are mapped onto a rectangle of pixels. -/
structure Viewport (α : Type) where
  x : Interval α
  y : Interval α
  frame : Frame
  deriving DecidableEq

namespace Interval

variable {α : Type} [Scalar α]

/-- The extent of a range. -/
def extent (i : Interval α) : α :=
  i.stop - i.start

/-- The range has finite ends in ascending order. -/
def IsProper (i : Interval α) : Prop :=
  Scalar.isFinite i.start = true ∧ Scalar.isFinite i.stop = true ∧ i.start < i.stop

instance (i : Interval α) : Decidable i.IsProper :=
  inferInstanceAs (Decidable (_ ∧ _ ∧ _))

/-- The text of a range. -/
def describe (i : Interval Float) : String :=
  s!"{pointedText i.start}..{pointedText i.stop}"

end Interval

namespace Viewport

variable {α : Type} [Scalar α]

/-- The window that a session starts with. -/
def initial : Viewport α where
  x := ⟨Scalar.ofInt (-10), Scalar.ofInt 10⟩
  y := ⟨Scalar.ofInt (-10), Scalar.ofInt 10⟩
  frame := ⟨0, 0, 600, 400⟩

/-- The lower left corner of the logical box. -/
def origin (v : Viewport α) : Point α :=
  ⟨v.x.start, v.y.start⟩

/-- The pixels for each logical unit along either axis. -/
def scale (v : Viewport α) : Point α where
  x := Scalar.ofInt v.frame.width.toNat / v.x.extent
  y := Scalar.ofInt v.frame.height.toNat / v.y.extent

/-- The pixel coordinates of a logical point. The top row of the rectangle belongs to the upper
end of the vertical range. -/
def project (v : Viewport α) (p : Point α) : Point α where
  x := Scalar.ofInt v.frame.x.toInt + (p.x - v.x.start) * v.scale.x
  y := Scalar.ofInt v.frame.y.toInt + (v.y.start + v.y.extent - p.y) * v.scale.y

/-- The ranges are proper and the rectangle has an area. -/
def IsValid (v : Viewport α) : Prop :=
  v.x.IsProper ∧ v.y.IsProper ∧ 0 < v.frame.width ∧ 0 < v.frame.height

instance (v : Viewport α) : Decidable v.IsValid :=
  inferInstanceAs (Decidable (_ ∧ _ ∧ _ ∧ _))

/-! ## Texts -/

/-- The parts of a viewport that are shown, by name. -/
def fields (v : Viewport Float) : List (String × String) :=
  [("x range", v.x.describe), ("y range", v.y.describe), ("width", toString v.frame.width.toNat),
    ("height", toString v.frame.height.toNat)]

/-- The text of a viewport on one line. -/
def describe (v : Viewport Float) : String :=
  "Viewport \x7b " ++ String.intercalate ", " (v.fields.map fun f => s!"{f.1}: {f.2}") ++ " \x7d"

/-- The text of a viewport with one line for each part. -/
def describeLines (v : Viewport Float) : String :=
  "Viewport \x7b\n" ++ String.join (v.fields.map fun f => s!"    {f.1}: {f.2},\n") ++ "\x7d"

end Viewport

end PlotSheet
