import PlotSheet.Drawing.Canvas
import PlotSheet.Proofs.Drawing.Tags

/-!
# Reading documents back

A document is a text of tags: an opening tag, the background, one element for each line, and the
closing tag. What the tags say is read back from the text alone. Of a backend it is assumed that
each thing it is asked to draw becomes one tag behind the text so far; what the text of a whole
drawing says follows from how the canvas uses the backend.

## Main definitions

* `DrawnLine`, `Rectangle`, `Picture`: what a document shows
* `Picture.read`, `Picture.readUnfinished`: the picture of a text, with and without its closing tag
* `IsTagText`: the text of one tag
* `Backend.WritesTags`: what is assumed of a backend

## Main results

* `Picture.readUnfinished_append_line`: one line more is shown
* `Picture.read_append_closing`: a closed document shows what it showed before
-/

namespace PlotSheet.Drawing

/-- A line as a document shows it. -/
structure DrawnLine where
  color : Rgb
  width : Int
  x₁ : Int
  y₁ : Int
  x₂ : Int
  y₂ : Int
  deriving DecidableEq

/-- A filled rectangle as a document shows it. -/
structure Rectangle where
  x : Int
  y : Int
  width : Int
  height : Int
  fill : Rgb
  deriving DecidableEq

/-- What a document shows. -/
structure Picture where
  width : Int
  height : Int
  background : Rectangle
  lines : List DrawnLine
  deriving DecidableEq

/-! ## Reading pictures -/

namespace Element

/-- The value of an attribute. -/
def attribute? (e : Element) (name : String) : Option String :=
  (e.attributes.lookup name.toList).map String.ofList

/-- The integer of an attribute. -/
def number? (e : Element) (name : String) : Option Int :=
  (e.attribute? name).bind String.toInt?

/-- The color of an attribute. -/
def color? (e : Element) (name : String) : Option Rgb :=
  (e.attribute? name).bind fun value =>
    match value.toList with
    | '#' :: digits => Rgb.ofHex? digits
    | _ => none

end Element

/-- The line of an empty `line` element. -/
def DrawnLine.ofTag? : Tag → Option DrawnLine
  | .empty e =>
    if e.name = "line".toList then do
      return ⟨← e.color? "stroke", ← e.number? "stroke-width", ← e.number? "x1", ← e.number? "y1",
        ← e.number? "x2", ← e.number? "y2"⟩
    else none
  | _ => none

/-- The rectangle of an empty `rect` element. -/
def Rectangle.ofTag? : Tag → Option Rectangle
  | .empty e =>
    if e.name = "rect".toList then do
      return ⟨← e.number? "x", ← e.number? "y", ← e.number? "width", ← e.number? "height",
        ← e.color? "fill"⟩
    else none
  | _ => none

/-- The picture of the tags of an `svg` element up to its closing tag: a rectangle, and then nothing
but lines. -/
def Picture.ofTags? : List Tag → Option Picture
  | .opening e :: background :: lines =>
    if e.name = "svg".toList then do
      return ⟨← e.number? "width", ← e.number? "height", ← Rectangle.ofTag? background,
        ← lines.mapM DrawnLine.ofTag?⟩
    else none
  | _ => none

/-- The tags ahead of the closing tag of an `svg` element. -/
def closed? (tags : List Tag) : Option (List Tag) :=
  if tags.getLast? = some (.closing "svg".toList) then some tags.dropLast else none

namespace Picture

/-- The picture that a text shows which is not closed yet. -/
def readUnfinished (document : String) : Option Picture :=
  (readTags document.toList).bind ofTags?

/-- The picture that a whole text shows. -/
def read (document : String) : Option Picture :=
  ((readTags document.toList).bind closed?).bind ofTags?

/-- The picture with one more line. -/
def addLine (p : Picture) (l : DrawnLine) : Picture :=
  { p with lines := p.lines ++ [l] }

end Picture

/-! ## Texts of one tag -/

/-- The text is that of one tag, behind whichever tags it stands. -/
def IsTagText (text : String) (tag : Tag) : Prop :=
  ∀ tags, Scanner.scan ⟨tags, .outside⟩ text.toList = some ⟨tags ++ [tag], .outside⟩

section TagTexts

variable {document text : String} {tag : Tag}

theorem readTags_eq_some {text : List Char} {tags : List Tag} (h : readTags text = some tags) :
    Scanner.scan ⟨[], .outside⟩ text = some ⟨tags, .outside⟩ := by
  unfold readTags at h
  split at h
  · next tags' hscan => rw [hscan, Option.some.inj h]
  · cases h

theorem readTags_of_isTagText (h : IsTagText text tag) : readTags text.toList = some [tag] := by
  rw [readTags, h []]
  rfl

/-- The text of one tag more is read as one tag more. -/
theorem readTags_append {tags : List Tag} (h : readTags document.toList = some tags)
    (htext : IsTagText text tag) : readTags (document ++ text).toList = some (tags ++ [tag]) := by
  rw [readTags, String.toList_append, Scanner.scan_append_of_scan (readTags_eq_some h), htext]

end TagTexts

namespace Picture

theorem ofTags?_opening {e : Element} {background : Tag} {width height : Int} {q : Rectangle}
    (hname : e.name = "svg".toList) (hwidth : e.number? "width" = some width)
    (hheight : e.number? "height" = some height) (hq : Rectangle.ofTag? background = some q) :
    ofTags? [.opening e, background] = some ⟨width, height, q, []⟩ := by
  rw [ofTags?, if_pos hname, hwidth, hheight, hq]
  rfl

/-- A line behind the tags of a picture is shown behind its lines. -/
theorem ofTags?_concat {tags : List Tag} {p : Picture} (h : ofTags? tags = some p) {tag : Tag}
    {l : DrawnLine} (hl : DrawnLine.ofTag? tag = some l) :
    ofTags? (tags ++ [tag]) = some (p.addLine l) := by
  unfold ofTags? at h
  split at h
  · next e background lines =>
    split at h
    · next hname =>
      simp only [Option.bind_eq_bind, Option.bind_eq_some_iff, Option.pure_def,
        Option.some.injEq] at h
      obtain ⟨width, hwidth, height, hheight, q, hq, shown, hshown, rfl⟩ := h
      have hlines : (lines ++ [tag]).mapM DrawnLine.ofTag? = some (shown ++ [l]) := by
        rw [List.mapM_append, hshown, List.mapM_cons, hl, List.mapM_nil]
        rfl
      rw [List.cons_append, List.cons_append, ofTags?, if_pos hname, hwidth, hheight, hq, hlines]
      rfl
    · cases h
  · cases h

variable {document text : String} {p : Picture}

/-- **One line more is shown.** -/
theorem readUnfinished_append_line (h : readUnfinished document = some p) {tag : Tag}
    (htext : IsTagText text tag) {l : DrawnLine} (hl : DrawnLine.ofTag? tag = some l) :
    readUnfinished (document ++ text) = some (p.addLine l) := by
  obtain ⟨tags, htags, hp⟩ := Option.bind_eq_some_iff.1 h
  rw [readUnfinished, readTags_append htags htext]
  exact ofTags?_concat hp hl

/-- **A closed document shows what it showed before.** -/
theorem read_append_closing (h : readUnfinished document = some p)
    (htext : IsTagText text (.closing "svg".toList)) : read (document ++ text) = some p := by
  obtain ⟨tags, htags, hp⟩ := Option.bind_eq_some_iff.1 h
  have hclosed : closed? (tags ++ [.closing "svg".toList]) = some tags := by
    rw [closed?, if_pos List.getLast?_concat, List.dropLast_concat]
  rw [read, readTags_append htags htext, Option.bind_some, hclosed]
  exact hp

end Picture

/-! ## What is assumed of a backend -/

/-- **What is assumed of a backend.** A document starts with the opening tag of an `svg` element of
its size. A filled rectangle from the origin and a line are each written as one empty element behind
the text so far, and the end as the closing tag. None of this fails. -/
structure Backend.WritesTags (b : Backend) : Prop where
  start (width height : UInt32) : ∃ e : Element,
    IsTagText (b.text (b.start width height)) (.opening e) ∧ e.name = "svg".toList ∧
      e.number? "width" = some width.toNat ∧ e.number? "height" = some height.toNat
  rectangle (d : b.Document) (opposite : Pixel) (fill : Rgb) : ∃ d' text e,
    b.rectangle d ⟨0, 0⟩ opposite fill = .ok d' ∧ b.text d' = b.text d ++ text ∧
      IsTagText text (.empty e) ∧
      Rectangle.ofTag? (.empty e) = some ⟨0, 0, opposite.x.toInt, opposite.y.toInt, fill⟩
  line (d : b.Document) (start stop : Pixel) (color : Rgb) (width : UInt32) : ∃ d' text e,
    b.line d start stop color width = .ok d' ∧ b.text d' = b.text d ++ text ∧
      IsTagText text (.empty e) ∧
      DrawnLine.ofTag? (.empty e) = some ⟨color, width.toNat, start.x.toInt, start.y.toInt,
        stop.x.toInt, stop.y.toInt⟩
  present (d : b.Document) : ∃ d' text,
    b.present d = .ok d' ∧ b.text d' = b.text d ++ text ∧
      IsTagText text (.closing "svg".toList)

end PlotSheet.Drawing
