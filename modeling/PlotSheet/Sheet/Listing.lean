import PlotSheet.Curve.Display
import PlotSheet.Sheet.Basic

/-!
# Listings

The equations of a sheet, and the points of a curve, as lines of text.

## Main definitions

* `Sheet.listing`: each equation with its status, its color and what it was read as
* `Curve.listing`: the points of a curve under a title
-/

namespace PlotSheet

/-- The mark of a status in listings. -/
def Status.glyph : Status → Char
  | graphed => '*'
  | hidden => 'o'
  | invalid => '!'

namespace Entry

/-- What the text was read as: a curve or an error. -/
def readingText (e : Entry) : Except Fault String :=
  match e.reading with
  | .ok curve => .ok curve.display
  | .error (.invalid error) => .ok error.cause.message
  | .error (.fault f) => .error f

/-- The two lines of an entry. -/
def listing (i : Nat) (e : Entry) : Except Fault String := do
  let reading ← e.readingText
  return s!"  {i}: {e.status.glyph} {e.text}  ({e.status.name}, {e.color.label})\n" ++
    s!"       {reading}\n"

end Entry

/-- The lines of the entries, numbered from the given index. -/
def Sheet.entryListings (i : Nat) : List Entry → Except Fault String
  | [] => return ""
  | e :: rest => do
    return (← e.listing i) ++ (← entryListings (i + 1) rest)

/-- The listing of a sheet. -/
def Sheet.listing (s : Sheet) : Except Fault String := do
  return "equations: \n" ++ (if s.isEmpty then "  (empty)\n" else "") ++
    (← entryListings 0 s.entries)

/-- The line of a point. -/
def SamplePoint.listing (n : Nat) (p : SamplePoint Float) : String :=
  if p.isGap then s!"  {n}: x = {plainText p.x} (gap)\n"
  else s!"  {n}: ({plainText p.x}, {plainText p.y})\n"

/-- The points of a curve under a title. -/
def Curve.listing (title : String) (c : Curve Float) : String :=
  s!"{title}: \n" ++ String.join (c.points.mapIdx SamplePoint.listing)

end PlotSheet
