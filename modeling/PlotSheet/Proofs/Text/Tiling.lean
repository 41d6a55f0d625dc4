import PlotSheet.Proofs.Text.Cut

/-!
# Tilings of a span

Spans tile a range of bytes if each one starts where the one before it ends. What tiling spans
cover, joined in order, is the text of the range; so a tiling is determined by the texts of its
parts, and a rule that cuts a text in only one way allows only one tiling. The signed terms of a
span are such a tiling.

## Main definitions

* `Tiles`: spans that fill a range of bytes of a source
* `IsTermTiling`: a tiling of a span whose parts start at the signs behind its first character

## Main results

* `tiles_pieces`, `Tiles.eq_pieces`: tilings are the spans of consecutive texts
* `isTermTiling_iff`: the only tiling of a span by signed terms
* `terms_tile`: the signed terms of a span lose nothing, tile it and are cut at every sign
-/

namespace PlotSheet

open Text

namespace Span

/-- The spans follow one another in the source and fill its bytes from `start` up to `stop`. -/
inductive Tiles (source : List Char) : (start stop : Nat) → List Span → Prop
  | nil (n : Nat) : Tiles source n n []
  | cons {part : Span} {start stop : Nat} {more : List Span} :
    part.source = source → part.start = start → Tiles source (start + part.length) stop more →
    Tiles source start stop (part :: more)

/-- The parts tile the span. Each of them covers characters with no sign behind the first one, and
every part but the first starts with a sign. -/
structure IsTermTiling (body : Span) (parts : List Span) : Prop where
  tiles : Tiles body.source body.start (body.start + body.length) parts
  covers : ∀ part ∈ parts,
    ∃ text, part.text = .ok text ∧ text ≠ [] ∧ ∀ c ∈ text.tail, isSign c = false
  starts : ∀ part ∈ parts.tail, ∃ c rest, part.text = .ok (c :: rest) ∧ isSign c = true

/-! ## Consecutive texts -/

theorem map_text_pieces (separator before after : List Char) (texts : List (List Char)) :
    (pieces separator before after texts).map Span.text = texts.map .ok := by
  fun_induction pieces separator before after texts with
  | case1 => rfl
  | case2 => simp
  | case3 before text next more ih => rw [List.map_cons, ih, text_between]; rfl

/-- The spans of consecutive texts tile the place of their join. -/
theorem tiles_pieces (after : List Char) (texts : List (List Char)) :
    ∀ before, Tiles (before ++ texts.flatten ++ after) (byteLength before)
      (byteLength (before ++ texts.flatten)) (pieces [] before after texts) := by
  induction texts with
  | nil =>
    intro before
    rw [List.flatten_nil, List.append_nil]
    exact .nil _
  | cons text more ih =>
    intro before
    have hmore := ih (before ++ text)
    rw [pieces_nil_cons, List.flatten_cons, ← List.append_assoc before]
    rw [byteLength_append before text] at hmore
    exact .cons (by simp) rfl hmore

theorem append_inj_of_byteLength {a b c d : List Char} (h : a ++ b = c ++ d)
    (hlength : byteLength a = byteLength c) : a = c ∧ b = d := by
  have hcut := splitBytes?_byteLength a b
  rw [h, hlength, splitBytes?_byteLength, Option.some.injEq, Prod.mk.injEq] at hcut
  exact ⟨hcut.1.symm, hcut.2.symm⟩

/-- Spans that tile a range from a boundary on are those of consecutive texts. -/
theorem Tiles.eq_pieces {source : List Char} {start stop : Nat} {parts : List Span}
    (h : Tiles source start stop parts) (htext : ∀ part ∈ parts, ∃ text, part.text = .ok text) :
    ∀ {before rest : List Char}, source = before ++ rest → byteLength before = start →
      ∃ texts after, rest = texts.flatten ++ after ∧
        byteLength (before ++ texts.flatten) = stop ∧ parts = pieces [] before after texts := by
  induction h with
  | nil n =>
    intro before rest _ hstart
    exact ⟨[], rest, rfl, by rw [List.flatten_nil, List.append_nil, hstart], rfl⟩
  | cons hpart hstart _ ih =>
    rintro before rest rfl hbefore
    obtain ⟨⟨_, htext⟩, hmore⟩ := List.forall_mem_cons.1 htext
    obtain ⟨ahead, text, behind, rfl, -⟩ := isPartOf_of_text htext
    rw [source_between, List.append_assoc] at hpart
    obtain ⟨rfl, rfl⟩ := append_inj_of_byteLength hpart (hstart.trans hbefore.symm)
    obtain ⟨texts, after, rfl, hstop, rfl⟩ := ih hmore (List.append_assoc ahead text behind).symm
      (by rw [byteLength_append, hbefore, length_between])
    exact ⟨text :: texts, after, by simp, by simpa using hstop, (pieces_nil_cons ..).symm⟩

/-- A tiling of a readable span is that of a cut of its text. -/
theorem Tiles.exists_flatten_eq {before text after : List Char} {parts : List Span}
    (h : Tiles (before ++ text ++ after) (byteLength before) (byteLength (before ++ text)) parts)
    (htext : ∀ part ∈ parts, ∃ text, part.text = .ok text) :
    ∃ texts, texts.flatten = text ∧ parts = pieces [] before after texts := by
  obtain ⟨texts, behind, hrest, hstop, rfl⟩ := h.eq_pieces htext (List.append_assoc ..) rfl
  rw [byteLength_append, byteLength_append, Nat.add_left_cancel_iff] at hstop
  obtain ⟨rfl, rfl⟩ := append_inj_of_byteLength hrest hstop.symm
  exact ⟨texts, rfl, rfl⟩

/-! ## Signed terms -/

theorem forall_text_iff {parts : List Span} {texts : List (List Char)}
    (h : parts.map Span.text = texts.map .ok) (P : List Char → Prop) :
    (∀ part ∈ parts, ∃ text, part.text = .ok text ∧ P text) ↔ ∀ text ∈ texts, P text := by
  have hmap := List.forall_mem_map (f := Span.text) (l := parts)
    (P := fun x => ∃ text, x = .ok text ∧ P text)
  rw [← hmap, h, List.forall_mem_map]
  simp

/-- Spans of consecutive texts are a tiling by signed terms exactly if the texts are the terms. -/
theorem isTermTiling_pieces_iff {before text after : List Char} {texts : List (List Char)}
    (hflat : texts.flatten = text) :
    IsTermTiling (between before text after) (pieces [] before after texts) ↔
      IsSignedSplit text texts := by
  subst hflat
  have hmap := map_text_pieces [] before after texts
  have htail : (pieces [] before after texts).tail.map Span.text = texts.tail.map .ok := by
    rw [List.map_tail, hmap, List.map_tail]
  have hcovers := forall_text_iff hmap fun t => t ≠ [] ∧ ∀ c ∈ t.tail, isSign c = false
  have hstarts := forall_text_iff htail fun t => ∃ c rest, t = c :: rest ∧ isSign c = true
  constructor
  · intro h
    have hterms := hcovers.1 h.covers
    refine ⟨rfl, fun t ht => (hterms t ht).1, fun t ht => (hterms t ht).2, hstarts.1 ?_⟩
    intro part hpart
    obtain ⟨c, rest, htext, hc⟩ := h.starts part hpart
    exact ⟨_, htext, c, rest, rfl, hc⟩
  · intro h
    refine ⟨?_, hcovers.2 fun t ht => ⟨h.ne_nil t ht, h.not_isSign_of_mem_tail t ht⟩, ?_⟩
    · have htiles := tiles_pieces after texts before
      rwa [byteLength_append] at htiles
    · intro part hpart
      obtain ⟨_, htext, c, rest, rfl, hc⟩ := hstarts.2 h.isSign_head part hpart
      exact ⟨c, rest, htext, hc⟩

/-- There is one tiling by signed terms. -/
theorem isTermTiling_iff {before text after : List Char} {parts : List Span} :
    IsTermTiling (between before text after) parts ↔
      parts = pieces [] before after (signedTerms text) := by
  constructor
  · intro h
    have htiles := h.tiles
    rw [length_between, source_between] at htiles
    obtain ⟨texts, rfl, rfl⟩ := Tiles.exists_flatten_eq (byteLength_append before text ▸ htiles)
      fun part hpart => (h.covers part hpart).imp fun _ => And.left
    rw [← isSignedSplit_iff.1 ((isTermTiling_pieces_iff rfl).1 h)]
  · rintro rfl
    exact (isTermTiling_pieces_iff (flatten_signedTerms text)).2 (isSignedSplit_signedTerms text)

/-- **Signed terms tile the body.** The terms of a readable span are spans of texts whose join is
the whole body. They tile its bytes, none of them is empty, all but the first start with a sign, and
no sign stands behind the first character of any; no other spans of the source do the same. -/
theorem terms_tile (body : Span) {text : List Char} (h : body.text = .ok text) :
    ∃ (parts : List Span) (texts : List (List Char)), body.terms = .ok parts ∧
      parts.map Span.text = texts.map .ok ∧ texts.flatten = text ∧ IsTermTiling body parts ∧
      ∀ others, IsTermTiling body others ↔ others = parts := by
  obtain ⟨before, text', after, rfl, -⟩ := isPartOf_of_text h
  obtain rfl : text' = text := by simpa using h
  exact ⟨_, signedTerms text', terms_between .., map_text_pieces .., flatten_signedTerms text',
    isTermTiling_iff.2 rfl, fun others => isTermTiling_iff⟩

/-- Signs in a row and at both ends are terms of their own or start one, and letters of two bytes
count as two. -/
theorem terms_tile_bareSigns :
    ∃ source body : List Char, source = "y=+π+-2x²-".toList ∧ body = "+π+-2x²-".toList ∧
      (Span.mk source 2 10).text = .ok body ∧
      (Span.mk source 2 10).terms =
        .ok [⟨source, 2, 3⟩, ⟨source, 5, 1⟩, ⟨source, 6, 5⟩, ⟨source, 11, 1⟩] ∧
      ∀ others, IsTermTiling ⟨source, 2, 10⟩ others ↔
        others = [⟨source, 2, 3⟩, ⟨source, 5, 1⟩, ⟨source, 6, 5⟩, ⟨source, 11, 1⟩] := by
  have htext : (Span.mk "y=+π+-2x²-".toList 2 10).text = .ok "+π+-2x²-".toList := by rfl
  obtain ⟨parts, texts, hterms, -, -, -, honly⟩ := terms_tile _ htext
  obtain rfl := Except.ok.inj hterms
  exact ⟨_, _, rfl, rfl, htext, rfl, honly⟩

end Span

end PlotSheet
