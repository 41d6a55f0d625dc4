import PlotSheet.Proofs.Text.Tiling

/-!
# The parts between separators

Splitting a span at a separator gives parts that hold no separator and stand one separator apart all
across the span. Their texts are the only ones without a separator whose join is the text of the
span, so splitting undoes joining as joining undoes splitting. A span is cut in two at its first
separator exactly if splitting gives several parts. The left side is then the first of them, and
splitting the right side gives the others.

## Main definitions

* `Spaced`: spans with a fixed number of bytes between neighbours

## Main results

* `not_mem_of_mem_splitOn`: no part holds the separator
* `spaced_pieces`: the spans of joined texts stand one separator apart
* `exists_cut?_of_splitOn`: the cut at the first separator and the parts between all of them
* `splitOn_separates`: the parts of a span, all in one statement
-/

namespace PlotSheet

open Text

namespace Text

/-- No part of a split text holds the separator. -/
theorem not_mem_of_mem_splitOn {c : Char} {text : List Char} :
    ∀ part ∈ text.splitOn c, c ∉ part := by
  induction text with
  | nil => simp
  | cons d text ih =>
    intro part hpart
    obtain ⟨first, more, hsplit⟩ := List.exists_cons_of_ne_nil (List.splitOn_ne_nil c text)
    rw [hsplit] at ih
    rw [List.splitOn_cons_eq_if_modifyHead, hsplit] at hpart
    split at hpart
    · rcases List.mem_cons.1 hpart with rfl | hpart
      · exact List.not_mem_nil
      · exact ih part hpart
    · next hd =>
      rcases List.mem_cons.1 hpart with rfl | hpart
      · exact List.not_mem_cons_of_ne_of_not_mem (fun h => hd (by simp [h]))
          (ih first List.mem_cons_self)
      · exact ih part (List.mem_cons_of_mem first hpart)

end Text

namespace Span

/-- The spans follow one another in the source from byte `start` up to byte `stop`, with `gap` bytes
between neighbours. -/
inductive Spaced (source : List Char) (gap : Nat) : (start stop : Nat) → List Span → Prop
  | last {part : Span} {start stop : Nat} :
    part.source = source → part.start = start → start + part.length = stop →
    Spaced source gap start stop [part]
  | cons {part : Span} {start stop : Nat} {more : List Span} :
    part.source = source → part.start = start →
    Spaced source gap (start + part.length + gap) stop more →
    Spaced source gap start stop (part :: more)

/-- The spans of joined texts stand one separator apart across the place of their join. -/
theorem spaced_pieces (separator after : List Char) {texts : List (List Char)} (h : texts ≠ []) :
    ∀ before, Spaced (before ++ separator.intercalate texts ++ after) (byteLength separator)
      (byteLength before) (byteLength (before ++ separator.intercalate texts))
      (pieces separator before after texts) := by
  induction texts with
  | nil => exact absurd rfl h
  | cons text more ih =>
    intro before
    cases more with
    | nil =>
      rw [List.intercalate_singleton]
      exact .last rfl rfl (byteLength_append before text).symm
    | cons next more =>
      have hmore := ih (List.cons_ne_nil next more) (before ++ text ++ separator)
      have hjoin : before ++ text ++ separator ++ separator.intercalate (next :: more) =
          before ++ separator.intercalate (text :: next :: more) := by
        rw [List.intercalate_cons_cons]
        simp only [List.append_assoc]
      rw [hjoin, byteLength_append (before ++ text), byteLength_append before text] at hmore
      exact .cons (by simp) rfl hmore

/-- A span is cut at its first separator exactly if it has several parts. The left side is the first
part, and the right side has the others. -/
theorem exists_cut?_of_splitOn (before text after : List Char) (c : Char) :
    ∃ sides, (between before text after).cut? c = .ok sides ∧
      (sides.isSome = true ↔ 2 ≤ (text.splitOn c).length) ∧
      ∀ left right, sides = some (left, right) →
        Spaced (before ++ text ++ after) c.utf8Size (byteLength before)
            (byteLength (before ++ text)) [left, right] ∧
          ∃ more, right.splitOn c = .ok more ∧
            pieces [c] before after (text.splitOn c) = left :: more := by
  by_cases hc : c ∈ text
  · obtain ⟨l, r, rfl, hl⟩ := List.eq_append_cons_of_mem hc
    have hsplit := List.splitOn_append_cons_self_of_not_mem hl r
    obtain ⟨next, more, hr⟩ := List.exists_cons_of_ne_nil (List.splitOn_ne_nil c r)
    have hjoin : [c].intercalate (next :: more) = r := by rw [← hr, List.intercalate_splitOn]
    have hspaced := spaced_pieces [c] after (List.cons_ne_nil l [r]) before
    refine ⟨_, cut?_between before after hl r, ?_, ?_⟩
    · rw [hsplit, hr]
      simp
    · rintro _ _ ⟨⟩
      refine ⟨by simpa [pieces] using hspaced, _, splitOn_between .., ?_⟩
      rw [hsplit, hr, pieces, hjoin]
      simp
  · refine ⟨none, cut?_between_eq_none before after hc, ?_, ?_⟩
    · rw [List.splitOn_eq_singleton hc]
      simp
    · intro left right h
      cases h

/-- **The parts between separators.** Splitting a readable span at a separator succeeds with every
cut checked. No part holds a separator, the join of their texts is the text of the span, there is
one more of them than there are separators, and they stand one separator apart from the first byte
of the span to its last one. Whatever texts without a separator have the text of the span as their
join, they are the texts of the parts. The cut at the first separator has a result exactly if there
are two parts or more: the first part, and behind one separator a rest that splits into the
others. -/
theorem splitOn_separates (s : Span) (c : Char) {text : List Char} (h : s.text = .ok text) :
    ∃ (parts : List Span) (texts : List (List Char)) (sides : Option (Span × Span)),
      s.splitOn c = .ok parts ∧
      parts.map Span.text = texts.map .ok ∧ (∀ t ∈ texts, c ∉ t) ∧
      [c].intercalate texts = text ∧ parts.length = text.count c + 1 ∧
      Spaced s.source c.utf8Size s.start (s.start + s.length) parts ∧
      (∀ others, others ≠ [] → (∀ t ∈ others, c ∉ t) → [c].intercalate others = text →
        parts.map Span.text = others.map .ok) ∧
      s.cut? c = .ok sides ∧ (sides.isSome = true ↔ 2 ≤ parts.length) ∧
      ∀ left right, sides = some (left, right) →
        Spaced s.source c.utf8Size s.start (s.start + s.length) [left, right] ∧
          ∃ more, right.splitOn c = .ok more ∧ parts = left :: more := by
  obtain ⟨before, text', after, rfl, -⟩ := isPartOf_of_text h
  obtain rfl : text' = text := by simpa using h
  have hsplit := splitOn_between before after text' c
  have hspaced := spaced_pieces [c] after (List.splitOn_ne_nil c text') before
  rw [List.intercalate_splitOn, byteLength_append] at hspaced
  obtain ⟨sides, hcut, hsome, hsides⟩ := exists_cut?_of_splitOn before text' after c
  rw [byteLength_append] at hsides
  refine ⟨_, text'.splitOn c, sides, hsplit, map_text_pieces .., not_mem_of_mem_splitOn,
    List.intercalate_splitOn c, by rw [length_pieces, length_splitOn], hspaced, ?_, hcut,
    by rwa [length_pieces], ?_⟩
  · rintro others hne hmem rfl
    rw [map_text_pieces, List.splitOn_intercalate c hmem hne]
  · intro left right hs
    exact hsides left right hs

/-- Separators of two bytes at the start and in a row leave empty parts, behind another text of the
source. -/
theorem splitOn_separates_letterPi :
    ∃ (source text : List Char) (parts : List Span) (left right : Span),
      source = "x=π2ππt".toList ∧ text = "π2ππt".toList ∧
      parts = [⟨source, 2, 0⟩, ⟨source, 4, 1⟩, ⟨source, 7, 0⟩, ⟨source, 9, 1⟩] ∧
      left = ⟨source, 2, 0⟩ ∧ right = ⟨source, 4, 6⟩ ∧
      (Span.mk source 2 8).text = .ok text ∧ (Span.mk source 2 8).splitOn 'π' = .ok parts ∧
      (∀ others, others ≠ [] → (∀ t ∈ others, 'π' ∉ t) → ['π'].intercalate others = text →
        parts.map Span.text = others.map .ok) ∧
      (Span.mk source 2 8).cut? 'π' = .ok (some (left, right)) ∧
      Spaced source 2 2 10 [left, right] ∧
      ∃ more, right.splitOn 'π' = .ok more ∧ parts = left :: more := by
  have htext : (Span.mk "x=π2ππt".toList 2 8).text = .ok "π2ππt".toList := by rfl
  obtain ⟨parts, texts, sides, hparts, -, -, -, -, -, honly, hcut, -, hsides⟩ :=
    splitOn_separates _ 'π' htext
  obtain rfl := Except.ok.inj hparts
  obtain rfl := Except.ok.inj hcut
  obtain ⟨hspaced, hmore⟩ := hsides _ _ rfl
  exact ⟨_, _, _, _, _, rfl, rfl, rfl, rfl, rfl, htext, rfl, honly, rfl, hspaced, hmore⟩

end Span

end PlotSheet
