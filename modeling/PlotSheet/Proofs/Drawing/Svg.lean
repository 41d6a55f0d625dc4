import PlotSheet.Proofs.Color
import PlotSheet.Proofs.Drawing.Document
import PlotSheet.Drawing.Svg
import Std.Data.String.ToInt

/-!
# SVG documents, read back

The backend of SVG documents does what is assumed of backends: what it writes for a document, a
rectangle and a line is the text of one tag, and sizes, colors and endpoints are read back from the
attributes, whatever they are.

## Main results

* `number?_eq`, `color?_eq`: integers and colors that were written as attributes
* `writesTags_svgBackend`: each document, rectangle and line is written as one tag
-/

namespace PlotSheet.Drawing

/-! ## Hexadecimal digits -/

theorem toUpper_digitChar_ne {n : Nat} (h : n < 16) :
    (Nat.digitChar n).toUpper ≠ '"' ∧ (Nat.digitChar n).toUpper ≠ '<' := by
  have hall : ∀ m : Fin 16, (Nat.digitChar m.val).toUpper ≠ '"' ∧
      (Nat.digitChar m.val).toUpper ≠ '<' := by decide
  exact hall ⟨n, h⟩

/-! ## Values that were written -/

theorem lookup_attributeCharacters (attributes : List (String × String)) (name : String) :
    (attributes.map attributeCharacters).lookup name.toList =
      (attributes.lookup name).map String.toList := by
  induction attributes with
  | nil => rfl
  | cons a attributes ih =>
    have hname : (name.toList == a.1.toList) = (name == a.1) := by
      rw [Bool.eq_iff_iff, beq_iff_eq, beq_iff_eq, String.toList_inj]
    rw [List.map_cons, attributeCharacters, List.lookup_cons, List.lookup_cons, hname, ih]
    cases name == a.1 <;> rfl

section Values

variable {name : List Char} {attributes : List (String × String)} {key : String}

theorem attribute?_eq :
    Element.attribute? ⟨name, attributes.map attributeCharacters⟩ key = attributes.lookup key := by
  rw [Element.attribute?, lookup_attributeCharacters, Option.map_map]
  cases attributes.lookup key <;> simp

theorem number?_eq {i : Int} (h : attributes.lookup key = some (toString i)) :
    Element.number? ⟨name, attributes.map attributeCharacters⟩ key = some i := by
  rw [Element.number?, attribute?_eq, h]
  exact Int.toInt?_repr i

/-- A byte is read from its text in upper case. -/
theorem channel?_toUpper (b : UInt8) :
    Rgb.channel? (Nat.digitChar (b.toNat / 16)).toUpper (Nat.digitChar (b.toNat % 16)).toUpper =
      some b := by
  have hb : b.toNat < 256 := b.toNat_lt
  have hhigh : IsHexDigit (Nat.digitChar (b.toNat / 16)).toUpper (b.toNat / 16) :=
    ⟨by omega, .inr rfl⟩
  have hlow : IsHexDigit (Nat.digitChar (b.toNat % 16)).toUpper (b.toNat % 16) :=
    ⟨by omega, .inr rfl⟩
  have hbyte := SpellsByte.digits hhigh hlow
  rw [Nat.div_add_mod, UInt8.ofNat_toNat] at hbyte
  exact Rgb.channel?_eq_some_iff.2 hbyte

theorem color?_eq {c : Rgb} (h : attributes.lookup key = some (upperHex c)) :
    Element.color? ⟨name, attributes.map attributeCharacters⟩ key = some c := by
  have htext : (upperHex c).toList = '#' :: c.hexDigits.map Char.toUpper := String.toList_ofList
  have hdigits : Rgb.ofHex? (c.hexDigits.map Char.toUpper) = some c := by
    simp [Rgb.hexDigits, Rgb.hexByte, Rgb.ofHex?, channel?_toUpper]
  rw [Element.color?, attribute?_eq, h, Option.bind_some, htext]
  exact hdigits

end Values

/-- The digits of a color need no escape. -/
theorem isPlain_upperHex (c : Rgb) : IsPlain (upperHex c) := by
  have hbyte : ∀ b : UInt8, ∀ d ∈ (Rgb.hexByte b).map Char.toUpper, d ≠ '"' ∧ d ≠ '<' := by
    intro b d hd
    have hb : b.toNat < 256 := b.toNat_lt
    simp only [Rgb.hexByte, List.map_cons, List.map_nil, List.mem_cons, List.not_mem_nil,
      or_false] at hd
    rcases hd with rfl | rfl
    · exact toUpper_digitChar_ne (show b.toNat / 16 < 16 by omega)
    · exact toUpper_digitChar_ne (show b.toNat % 16 < 16 by omega)
  intro d hd
  rw [upperHex, String.toList_ofList, Rgb.hexDigits, List.map_append, List.map_append,
    List.mem_cons, List.mem_append, List.mem_append] at hd
  rcases hd with rfl | (hd | hd) | hd
  · decide
  · exact hbyte c.red d hd
  · exact hbyte c.green d hd
  · exact hbyte c.blue d hd

/-! ## What the backend writes -/

open Scanner

/-- An empty element with plain attributes is the text of one tag. -/
theorem isTagText_element {name : String} (hne : name.toList ≠ []) (hname : IsName name)
    {attributes : List (String × String)} (h : ∀ a ∈ attributes, IsPlainAttribute a) :
    IsTagText (element name (attributesText attributes))
      (.empty ⟨name.toList, attributes.map attributeCharacters⟩) :=
  fun tags => scan_element tags hne hname h

section Lines

variable (start stop : Pixel) (color : Rgb) (width : UInt32)

/-- The attributes of a line. -/
def lineAttributes : List (String × String) :=
  [("opacity", "1"), ("stroke", upperHex color), ("stroke-width", toString (width.toNat : Int)),
    ("x1", toString start.x.toInt), ("y1", toString start.y.toInt),
    ("x2", toString stop.x.toInt), ("y2", toString stop.y.toInt)]

theorem lineElement_eq : lineElement start stop color width =
    element "line" (attributesText (lineAttributes start stop color width)) := rfl

theorem isPlainAttribute_line :
    ∀ a ∈ lineAttributes start stop color width, IsPlainAttribute a := by
  intro a ha
  simp only [lineAttributes, List.mem_cons, List.not_mem_nil, or_false] at ha
  rcases ha with rfl | rfl | rfl | rfl | rfl | rfl | rfl
  · exact .of "opacity" (by decide) (by decide)
  · exact .of "stroke" (by decide) (isPlain_upperHex color)
  · exact .of "stroke-width" (by decide) (isPlain_toString_int _)
  · exact .of "x1" (by decide) (isPlain_toString_int _)
  · exact .of "y1" (by decide) (isPlain_toString_int _)
  · exact .of "x2" (by decide) (isPlain_toString_int _)
  · exact .of "y2" (by decide) (isPlain_toString_int _)

theorem ofTag?_line :
    DrawnLine.ofTag?
        (.empty ⟨"line".toList, (lineAttributes start stop color width).map attributeCharacters⟩) =
      some ⟨color, width.toNat, start.x.toInt, start.y.toInt, stop.x.toInt, stop.y.toInt⟩ := by
  rw [DrawnLine.ofTag?, if_pos rfl, color?_eq rfl, number?_eq rfl, number?_eq rfl, number?_eq rfl,
    number?_eq rfl, number?_eq rfl]
  rfl

end Lines

section Rectangles

variable (opposite : Pixel) (fill : Rgb)

/-- The attributes of a filled rectangle from the origin. -/
def rectangleAttributes : List (String × String) :=
  [("x", toString (0 : Int)), ("y", toString (0 : Int)), ("width", toString opposite.x.toInt),
    ("height", toString opposite.y.toInt), ("opacity", "1"), ("fill", upperHex fill),
    ("stroke", "none")]

theorem rectangleElement_eq : rectangleElement ⟨0, 0⟩ opposite fill =
    element "rect" (attributesText (rectangleAttributes opposite fill)) := by
  have horigin : (0 : Int32).toInt = 0 := rfl
  simp only [rectangleElement, rectangleAttributes, attributesText, numberAttribute, horigin,
    Int.sub_zero, List.map_cons, List.map_nil]

theorem isPlainAttribute_rectangle :
    ∀ a ∈ rectangleAttributes opposite fill, IsPlainAttribute a := by
  intro a ha
  simp only [rectangleAttributes, List.mem_cons, List.not_mem_nil, or_false] at ha
  rcases ha with rfl | rfl | rfl | rfl | rfl | rfl | rfl
  · exact .of "x" (by decide) (isPlain_toString_int _)
  · exact .of "y" (by decide) (isPlain_toString_int _)
  · exact .of "width" (by decide) (isPlain_toString_int _)
  · exact .of "height" (by decide) (isPlain_toString_int _)
  · exact .of "opacity" (by decide) (by decide)
  · exact .of "fill" (by decide) (isPlain_upperHex _)
  · exact .of "stroke" (by decide) (by decide)

theorem ofTag?_rectangle :
    Rectangle.ofTag?
        (.empty ⟨"rect".toList, (rectangleAttributes opposite fill).map attributeCharacters⟩) =
      some ⟨0, 0, opposite.x.toInt, opposite.y.toInt, fill⟩ := by
  rw [Rectangle.ofTag?, if_pos rfl, number?_eq rfl, number?_eq rfl, number?_eq rfl, number?_eq rfl,
    color?_eq rfl]
  rfl

end Rectangles

section Openings

variable (width height : UInt32)

/-- The attributes of an opening tag. -/
def openingAttributes : List (String × String) :=
  [("width", toString (width.toNat : Int)), ("height", toString (height.toNat : Int)),
    ("viewBox", s!"0 0 {width.toNat} {height.toNat}"), ("xmlns", "http://www.w3.org/2000/svg")]

theorem isPlainAttribute_opening : ∀ a ∈ openingAttributes width height, IsPlainAttribute a := by
  have hstart : IsPlain "0 0 " := by decide
  have hspace : IsPlain " " := by decide
  have hviewBox := ((hstart.append (isPlain_toString_nat width.toNat)).append hspace).append
    (isPlain_toString_nat height.toNat)
  intro a ha
  simp only [openingAttributes, List.mem_cons, List.not_mem_nil, or_false] at ha
  rcases ha with rfl | rfl | rfl | rfl
  · exact .of "width" (by decide) (isPlain_toString_int _)
  · exact .of "height" (by decide) (isPlain_toString_int _)
  · exact .of "viewBox" (by decide) hviewBox
  · exact .of "xmlns" (by decide) (by decide)

theorem isTagText_openingTag : IsTagText (openingTag width height)
    (.opening ⟨"svg".toList, (openingAttributes width height).map attributeCharacters⟩) := by
  intro tags
  have htext : (openingTag width height).toList =
      ('<' :: "svg".toList ++
        (String.join (attributesText (openingAttributes width height))).toList) ++ ['>', '\n'] := by
    simp [openingTag, openingAttributes, attributesText, numberAttribute]
  have hstart := scan_start tags (show "svg".toList ≠ [] by decide) (by decide)
    (isPlainAttribute_opening width height)
  rw [htext, scan_append_of_scan hstart]
  rfl

end Openings

theorem text_cons (tags : List String) (tag : String) :
    svgBackend.text (tag :: tags) = svgBackend.text tags ++ tag := by
  change String.join (tag :: tags).reverse = String.join tags.reverse ++ tag
  simp

/-- **The backend of SVG documents writes tags.** -/
theorem writesTags_svgBackend : svgBackend.WritesTags where
  start width height := by
    have htext : svgBackend.text (svgBackend.start width height) = openingTag width height := by
      change String.join [openingTag width height] = openingTag width height
      simp
    refine ⟨⟨"svg".toList, (openingAttributes width height).map attributeCharacters⟩, ?_, rfl,
      number?_eq rfl, number?_eq rfl⟩
    rw [htext]
    exact isTagText_openingTag width height
  rectangle d opposite fill := by
    refine ⟨_, _, _, rfl, text_cons d _, ?_, ofTag?_rectangle opposite fill⟩
    rw [rectangleElement_eq]
    exact isTagText_element (show "rect".toList ≠ [] by decide) (by decide)
      (isPlainAttribute_rectangle opposite fill)
  line d start stop color width := by
    refine ⟨_, _, _, rfl, text_cons d _, ?_, ofTag?_line start stop color width⟩
    rw [lineElement_eq]
    exact isTagText_element (show "line".toList ≠ [] by decide) (by decide)
      (isPlainAttribute_line start stop color width)
  present d := ⟨_, _, rfl, text_cons d _, fun _ => rfl⟩

end PlotSheet.Drawing
