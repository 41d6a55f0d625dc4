import PlotSheet.Drawing.Canvas

/-!
# SVG documents

The backend that writes SVG: an opening tag with the size, one empty element on a line of its own
for each rectangle and line, and the closing tag. It writes to memory, and never fails.

## Main definitions

* `svgBackend`: the backend of SVG documents
-/

namespace PlotSheet.Drawing

/-- The text of a color in upper case. -/
def upperHex (c : Rgb) : String :=
  String.ofList ('#' :: c.hexDigits.map Char.toUpper)

/-- An attribute of an element. -/
def textAttribute (name value : String) : String :=
  s!" {name}=\"{value}\""

/-- An attribute with a number. -/
def numberAttribute (name : String) (value : Int) : String :=
  textAttribute name (toString value)

/-- An empty element on a line of its own. -/
def element (name : String) (attributes : List String) : String :=
  s!"<{name}" ++ String.join attributes ++ "/>\n"

/-- The opening tag of a document. -/
def openingTag (width height : UInt32) : String :=
  "<svg" ++ numberAttribute "width" width.toNat ++ numberAttribute "height" height.toNat ++
    textAttribute "viewBox" s!"0 0 {width.toNat} {height.toNat}" ++
    textAttribute "xmlns" "http://www.w3.org/2000/svg" ++ ">\n"

/-- The element of a filled rectangle. -/
def rectangleElement (corner opposite : Pixel) (fill : Rgb) : String :=
  element "rect"
    [numberAttribute "x" corner.x.toInt, numberAttribute "y" corner.y.toInt,
      numberAttribute "width" (opposite.x.toInt - corner.x.toInt),
      numberAttribute "height" (opposite.y.toInt - corner.y.toInt), textAttribute "opacity" "1",
      textAttribute "fill" (upperHex fill), textAttribute "stroke" "none"]

/-- The element of a line. -/
def lineElement (start stop : Pixel) (color : Rgb) (width : UInt32) : String :=
  element "line"
    [textAttribute "opacity" "1", textAttribute "stroke" (upperHex color),
      numberAttribute "stroke-width" width.toNat, numberAttribute "x1" start.x.toInt,
      numberAttribute "y1" start.y.toInt, numberAttribute "x2" stop.x.toInt,
      numberAttribute "y2" stop.y.toInt]

/-- The closing tag of a document. -/
def closingTag : String := "</svg>\n"

/-- The backend of SVG documents. A document is the list of its tags, the last one first. -/
def svgBackend : Backend where
  Document := List String
  start width height := [openingTag width height]
  rectangle tags corner opposite fill := .ok (rectangleElement corner opposite fill :: tags)
  line tags start stop color width := .ok (lineElement start stop color width :: tags)
  present tags := .ok (closingTag :: tags)
  text tags := String.join tags.reverse

end PlotSheet.Drawing
