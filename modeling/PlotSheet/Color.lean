import PlotSheet.Number.Natural
import PlotSheet.Text.Blank
import PlotSheet.Text.Slice

/-!
# Colors

Colors are triples of bytes. They are named from a palette, or written `#rrggbb` with two
hexadecimal digits for each channel.

## Main definitions

* `Rgb`: the colors
* `palette`: the named colors
* `Rgb.read`: the color that a text names
* `Rgb.hex`: the text of a color
-/

namespace PlotSheet

/-- A color by its channels. -/
structure Rgb where
  red : UInt8
  green : UInt8
  blue : UInt8
  deriving DecidableEq, Repr

/-- Why a text names no color. -/
inductive ColorError where
  | unknownName (name : String)
  | badHex (text : String)
  deriving DecidableEq, Repr

/-- The wording of a color error. -/
def ColorError.message : ColorError → String
  | unknownName name => s!"unknown color '{name}'"
  | badHex text => s!"'{text}' is not a color of the form #rrggbb"

namespace Rgb

/-- The color without light. -/
def black : Rgb := ⟨0, 0, 0⟩

/-- The color of full light, that of the canvas. -/
def white : Rgb := ⟨255, 255, 255⟩

/-- The color of an entry until one is chosen. -/
def initial : Rgb := black

/-- The color of the axes. -/
def axis : Rgb := ⟨165, 165, 165⟩

end Rgb

/-- The named colors. -/
def palette : List (String × Rgb) :=
  [("black", Rgb.black), ("red", ⟨220, 38, 38⟩), ("orange", ⟨234, 124, 22⟩),
    ("yellow", ⟨202, 160, 8⟩), ("green", ⟨22, 150, 60⟩), ("blue", ⟨37, 99, 235⟩),
    ("purple", ⟨126, 58, 200⟩), ("gray", ⟨110, 110, 110⟩)]

namespace Rgb

/-- The palette color of a name, without regard to the case of ASCII letters. -/
def ofName? (name : String) : Option Rgb :=
  (palette.find? fun entry => entry.1.toList == name.toList.map Char.toLower).map Prod.snd

/-- The palette name of a color. -/
def name? (color : Rgb) : Option String :=
  (palette.find? fun entry => entry.2 == color).map Prod.fst

/-- A byte that is written as a numeral in base 16. -/
def channel? (high low : Char) : Option UInt8 :=
  match Natural.read 16 256 [high, low] with
  | .ok n => some (UInt8.ofNat n)
  | .error _ => none

/-- The color that the text behind a number sign spells. -/
def ofHex? : List Char → Option Rgb
  | [r₁, r₂, g₁, g₂, b₁, b₂] => do
    return ⟨← channel? r₁ r₂, ← channel? g₁ g₂, ← channel? b₁ b₂⟩
  | _ => none

/-- The color that a text names. -/
def read (text : String) : Except ColorError Rgb :=
  let trimmed := Text.trim text.toList
  let name := String.ofList trimmed
  match trimmed with
  | '#' :: digits => (ofHex? digits).elim (.error (.badHex name)) .ok
  | _ => (ofName? name).elim (.error (.unknownName name)) .ok

/-- A byte as two hexadecimal digits. -/
def hexByte (b : UInt8) : List Char :=
  [Nat.digitChar (b.toNat / 16), Nat.digitChar (b.toNat % 16)]

/-- The text of a color behind its number sign. -/
def hexDigits (c : Rgb) : List Char :=
  hexByte c.red ++ hexByte c.green ++ hexByte c.blue

/-- The text of a color, in lower case. -/
def hex (c : Rgb) : String :=
  String.ofList ('#' :: c.hexDigits)

/-- The palette name of a color, or its text if it has none. -/
def label (c : Rgb) : String :=
  c.name?.getD c.hex

end Rgb

/-- The line that lists the palette. -/
def paletteText : String :=
  "colors: " ++ String.intercalate ", " (palette.map Prod.fst) ++ " (or #rrggbb)\n"

end PlotSheet
