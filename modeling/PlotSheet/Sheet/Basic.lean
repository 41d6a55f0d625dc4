import PlotSheet.Drawing.Scene
import PlotSheet.Equation.Basic

/-!
# Sheets

A sheet is the list of the equations that are plotted. An entry keeps its text as it was typed and
what reading it gave, a color, and whether the curve is shown. Reading depends on how many
coefficients a polynomial can have.

## Main definitions

* `Entry`, `Status`: an equation of a sheet
* `Sheet`: the equations in order
* `Sheet.add`, `Sheet.edit`, `Sheet.remove`, `Sheet.toggle`, `Sheet.setColor`: changes of a sheet
* `Sheet.figures`: the scene of a sheet
-/

namespace PlotSheet

/-- What an entry contributes to the plot. -/
inductive Status where
  | graphed
  | hidden
  | invalid
  deriving DecidableEq, Repr

/-- The word for a status. -/
def Status.name : Status → String
  | graphed => "graphed"
  | hidden => "hidden"
  | invalid => "invalid"

/-- An equation of a sheet. -/
structure Entry where
  /-- The text as it was typed. -/
  text : String
  /-- What reading the text gave. -/
  reading : Except Equation.Failure (Curve Float)
  color : Rgb
  /-- Whether the curve is shown if the text is an equation. -/
  shown : Bool

namespace Entry

/-- A new entry with the given text. -/
def ofText (most : Nat) (text : String) : Entry :=
  ⟨text, Equation.parse most text, .initial, true⟩

/-- Whether the text is an equation. -/
def isValid (e : Entry) : Bool :=
  match e.reading with
  | .ok _ => true
  | .error _ => false

/-- What the entry contributes to the plot. -/
def status (e : Entry) : Status :=
  if !e.isValid then .invalid
  else if e.shown then .graphed
  else .hidden

/-- The entry with another text. Its color and whether it is shown stay. -/
def setText (most : Nat) (e : Entry) (text : String) : Entry :=
  { ofText most text with
    color := e.color
    shown := e.shown }

/-- The entry with its curve shown if it was hidden and hidden if it was shown. -/
def flip (e : Entry) : Entry :=
  { e with shown := !e.shown }

/-- The figure of an entry, if its text is an equation. -/
def figure? (e : Entry) : Option (Drawing.Figure Float) :=
  match e.reading with
  | .ok curve => some ⟨curve, e.color, e.shown⟩
  | .error _ => none

end Entry

/-- The list of the equations that are plotted. -/
structure Sheet where
  entries : List Entry

namespace Sheet

/-- The sheet without equations. -/
def empty : Sheet := ⟨[]⟩

/-- The number of equations. -/
def size (s : Sheet) : Nat :=
  s.entries.length

/-- Whether there are no equations. -/
def isEmpty (s : Sheet) : Bool :=
  s.entries.isEmpty

/-- The equation with the given index. -/
def get? (s : Sheet) (i : Nat) : Option Entry :=
  s.entries[i]?

/-- The sheet with one more equation at its end. -/
def add (most : Nat) (s : Sheet) (text : String) : Sheet :=
  ⟨s.entries ++ [.ofText most text]⟩

/-- The sheet with an equation replaced, if there is one with the index. -/
def replace? (s : Sheet) (i : Nat) (change : Entry → Entry) : Option Sheet :=
  if i < s.size then some ⟨s.entries.modify i change⟩ else none

/-- The sheet with another text at an index, if there is one. -/
def edit (most : Nat) (s : Sheet) (i : Nat) (text : String) : Option Sheet :=
  s.replace? i (·.setText most text)

/-- The equation with an index and the sheet without it, if there is one. -/
def remove (s : Sheet) (i : Nat) : Option (Entry × Sheet) :=
  (s.get? i).map fun e => (e, ⟨s.entries.eraseIdx i⟩)

/-- Whether the equation with an index was flipped, and the sheet with it flipped, if there is
one. Only valid equations flip. -/
def toggle (s : Sheet) (i : Nat) : Option (Bool × Sheet) :=
  match s.get? i with
  | none => none
  | some e =>
    if e.isValid then (s.replace? i Entry.flip).map fun s' => (true, s')
    else some (false, s)

/-- The sheet with another color at an index, if there is one. -/
def setColor (s : Sheet) (i : Nat) (color : Rgb) : Option Sheet :=
  s.replace? i ({ · with color })

/-- The figures of the valid equations, in order. -/
def figures (s : Sheet) : List (Drawing.Figure Float) :=
  s.entries.filterMap Entry.figure?

/-- The number of equations that are graphed. -/
def graphedCount (s : Sheet) : Nat :=
  s.entries.countP fun e => e.status = .graphed

end Sheet

end PlotSheet
