import PlotSheet.Fault
import PlotSheet.Text.Slice

/-!
# Located texts

A span is a part of a source text, given by its byte offset and byte length, so that whatever is
found in the part can be blamed at its place in the source. Offsets are plain numbers: reading the
text of a span checks that they lie on character boundaries of the source, and answers with a fault
if they do not. Cutting a span gives spans of the same source, and every part is checked when it is
cut out: it must lie in the span, and both of its ends must be character boundaries. Splitting runs
over the characters with their offsets and keeps the start of the current part.

## Main definitions

* `Span`: a source, an offset and a length
* `Span.text`: the text of a span
* `Span.slice`, `Span.upTo`: a part by its start and length, and by its two ends
* `Span.splitAt`, `Span.dropPrefix?`, `Span.dropSuffix?`, `Span.cut?`, `Span.splitOn`,
  `Span.terms`: parts of a span
* `Span.underline`: the source with carets under the span
-/

namespace PlotSheet

open Text

/-- A part of a source text, by bytes. -/
structure Span where
  /-- The whole text that the span is a part of. -/
  source : List Char
  /-- The first byte of the span in the source. -/
  start : Nat
  /-- The number of bytes of the span. -/
  length : Nat
  deriving DecidableEq, Repr

namespace Span

/-- The whole of a text. -/
def whole (source : List Char) : Span :=
  ⟨source, 0, byteLength source⟩

/-- The source before the span. -/
def before (s : Span) : Except Fault (List Char) :=
  match splitBytes? s.start s.source with
  | some (before, _) => .ok before
  | none => .error .slice

/-- The text of the span. -/
def text (s : Span) : Except Fault (List Char) :=
  match splitBytes? s.start s.source with
  | none => .error .slice
  | some (_, rest) =>
    match splitBytes? s.length rest with
    | none => .error .slice
    | some (text, _) => .ok text

/-- Whether the span holds no text. -/
def isEmpty (s : Span) : Bool :=
  s.length == 0

/-- The part of `length` bytes from byte `start` of the span. -/
def slice (s : Span) (start length : Nat) : Except Fault Span := do
  match splitBytes? start (← s.text) with
  | none => .error .slice
  | some (_, rest) =>
    match splitBytes? length rest with
    | none => .error .slice
    | some _ => return ⟨s.source, s.start + start, length⟩

/-- The part from byte `start` up to byte `stop` of the span. -/
def upTo (s : Span) (start stop : Nat) : Except Fault Span := do
  s.slice start (← difference stop start)

/-- The two sides of byte `i` of the span. -/
def splitAt (s : Span) (i : Nat) : Except Fault (Span × Span) := do
  return (← s.slice 0 i, ← s.upTo i s.length)

/-- The byte offset of the first occurrence of the pattern in the span. -/
def find? (s : Span) (pattern : List Char) : Except Fault (Option Nat) := do
  return Text.find? pattern (← s.text)

/-- Whether the character occurs in the span. -/
def contains (s : Span) (c : Char) : Except Fault Bool := do
  return (← s.text).contains c

/-- What follows the given start of the span, if it starts so. -/
def dropPrefix? (s : Span) (start : List Char) : Except Fault (Option Span) := do
  if start.isPrefixOf (← s.text) then return some (← s.upTo (byteLength start) s.length)
  else return none

/-- What precedes the given end of the span, if it ends so. -/
def dropSuffix? (s : Span) (ending : List Char) : Except Fault (Option Span) := do
  if ending.isSuffixOf (← s.text) then
    return some (← s.slice 0 (← difference s.length (byteLength ending)))
  else return none

/-- The two sides of the first occurrence of a separator. -/
def cut? (s : Span) (separator : Char) : Except Fault (Option (Span × Span)) := do
  match ← s.find? [separator] with
  | none => return none
  | some i => return some (← s.slice 0 i, ← s.upTo (i + separator.utf8Size) s.length)

/-- The parts between the separators among the characters ahead, the current one from byte
`start`. -/
def partsFrom (s : Span) (separator : Char) (start : Nat) :
    List (Nat × Char) → Except Fault (List Span)
  | [] => return [← s.upTo start s.length]
  | (i, c) :: ahead => do
    if c = separator then
      let part ← s.upTo start i
      return part :: (← partsFrom s separator (i + separator.utf8Size) ahead)
    else partsFrom s separator start ahead

/-- The parts between the occurrences of a separator, empty ones included. -/
def splitOn (s : Span) (separator : Char) : Except Fault (List Span) := do
  s.partsFrom separator 0 (charOffsets 0 (← s.text))

/-- The signed terms among the characters ahead, the current one from byte `start` up to byte
`stop` so far. -/
def termsFrom (s : Span) (start stop : Nat) : List (Nat × Char) → Except Fault (List Span)
  | [] => return [← s.upTo start stop]
  | (i, c) :: ahead => do
    if isSign c then
      let term ← s.upTo start stop
      return term :: (← termsFrom s i (i + c.utf8Size) ahead)
    else termsFrom s start (i + c.utf8Size) ahead

/-- The signed terms of the span: a new one starts right before every sign but the first
character. -/
def terms (s : Span) : Except Fault (List Span) := do
  match charOffsets 0 (← s.text) with
  | [] => return []
  | (i, c) :: ahead => s.termsFrom i (i + c.utf8Size) ahead

/-- The source, and below it one caret for each character of the span, at least one. -/
def underline (s : Span) : Except Fault String := do
  let pad := List.replicate (← s.before).length ' '
  let carets := List.replicate (max (← s.text).length 1) '^'
  return String.ofList (s.source ++ '\n' :: pad ++ carets ++ ['\n'])

/-- The span covers `text`, with `before` ahead of it and `after` behind it. -/
theorem text_eq_ok_iff {s : Span} {text : List Char} :
    s.text = .ok text ↔ ∃ before after, s.source = before ++ text ++ after ∧
      byteLength before = s.start ∧ byteLength text = s.length := by
  constructor
  · intro h
    unfold Span.text at h
    split at h
    · simp at h
    · next before rest hcut =>
      split at h
      · simp at h
      · next mid after hcut' =>
        obtain ⟨hsource, hstart⟩ := splitBytes?_eq_some_iff.1 hcut
        obtain ⟨hrest, hlength⟩ := splitBytes?_eq_some_iff.1 hcut'
        obtain rfl := Except.ok.inj h
        exact ⟨before, after, by simp [hsource, hrest], hstart, hlength⟩
  · rintro ⟨before, after, hsource, hstart, hlength⟩
    simp [Span.text, hsource, ← hstart, ← hlength, splitBytes?_byteLength, List.append_assoc]

@[simp] theorem text_whole (source : List Char) : (whole source).text = .ok source :=
  text_eq_ok_iff.2 ⟨[], [], by simp [whole], rfl, rfl⟩

end Span

end PlotSheet
