import PlotSheet.Proofs.Result
import PlotSheet.Proofs.Text.SignedSplit
import PlotSheet.Text.Span

/-!
# Spans as cuts of a source

A source that is cut in three, `before ++ text ++ after`, has a span for its middle text. Every
operation on such a span passes its checks, and gives spans of finer cuts of the same source; so no
chain of them, however long, leaves the source or cuts a character in two. Searching and splitting
are described by the characters alone, and the byte offsets follow.

## Main definitions

* `Span.between`: the span of the middle text of a cut
* `Span.pieces`: the spans of consecutive texts with a separator between neighbours
* `Text.ThreeParts`: a text that is cut in three at its separators
* `Span.IsPartOf`: the span comes from some cut of a source

## Main results

* `slice_eq_ok_iff`: what a part that is cut out promises
* `partsFrom_between`, `termsFrom_between`: the scanners, from any place in a text
* `dropPrefix?_between`, `dropSuffix?_between`, `splitAt_between`, `cut?_between`,
  `splitOn_between`, `terms_between`: the operations on the span of a cut
* `splitOn_of_threeParts`, `exists_splitOn_between`: the parts of a text with two separators, and
  the number of parts of any text
* `IsPartOf.dropPrefix?`, …, `IsPartOf.terms`: parts of a source stay parts of it
* `IsPartOf.isValid_start`, `IsPartOf.isValid_end`: both ends are positions of the source in UTF-8
-/

namespace PlotSheet

namespace Text

/-- The length in bytes is that of the text in UTF-8. -/
theorem byteLength_eq_utf8ByteSize (text : List Char) :
    byteLength text = (String.ofList text).utf8ByteSize := by
  induction text with
  | nil => rfl
  | cons c text ih => rw [byteLength_cons, ih, String.ofList_cons]; simp

theorem byteLength_append_singleton (text : List Char) (c : Char) :
    byteLength (text ++ [c]) = byteLength text + c.utf8Size := by
  simp

theorem byteLength_le_of_prefix {a b : List Char} (h : a <+: b) : byteLength a ≤ byteLength b := by
  obtain ⟨c, rfl⟩ := h
  simp

theorem byteLength_le_of_suffix {a b : List Char} (h : a <:+ b) : byteLength a ≤ byteLength b := by
  obtain ⟨c, rfl⟩ := h
  simp

@[simp] theorem byteLength_eq_zero_iff {text : List Char} : byteLength text = 0 ↔ text = [] := by
  cases text with
  | nil => simp
  | cons c text => have := c.utf8Size_pos; simp; omega

/-! ## Searching -/

/-- What is found stands at its offset. -/
theorem exists_of_find?_eq_some {pattern : List Char} :
    ∀ {text : List Char} {i : Nat}, find? pattern text = some i →
      ∃ l r, text = l ++ pattern ++ r ∧ byteLength l = i := by
  intro text
  induction text with
  | nil =>
    intro i h
    obtain ⟨hnil, rfl⟩ : pattern = [] ∧ 0 = i := by simpa [find?] using h
    exact ⟨[], [], by simp [hnil], rfl⟩
  | cons c text ih =>
    intro i h
    rw [find?] at h
    split at h
    · next hpre =>
      obtain ⟨r, hr⟩ := List.isPrefixOf_iff_prefix.1 hpre
      exact ⟨[], r, by simp [hr], by simpa using h⟩
    · obtain ⟨j, hj, rfl⟩ := Option.map_eq_some_iff.1 h
      obtain ⟨l, r, rfl, rfl⟩ := ih hj
      exact ⟨c :: l, r, by simp, rfl⟩

theorem find?_singleton_of_not_mem {c : Char} {l : List Char} (h : c ∉ l) (r : List Char) :
    find? [c] (l ++ c :: r) = some (byteLength l) := by
  induction l with
  | nil => simp [find?]
  | cons d l ih =>
    obtain ⟨hd, hl⟩ := List.ne_and_not_mem_of_not_mem_cons h
    simp [find?, hd, ih hl]

theorem find?_singleton_eq_none {c : Char} {text : List Char} (h : c ∉ text) :
    find? [c] text = none := by
  induction text with
  | nil => rfl
  | cons d text ih =>
    obtain ⟨hd, htext⟩ := List.ne_and_not_mem_of_not_mem_cons h
    simp [find?, hd, ih htext]

@[simp] theorem intercalate_nil_left (texts : List (List Char)) :
    List.intercalate [] texts = texts.flatten := by
  induction texts with
  | nil => rfl
  | cons text more ih =>
    cases more with
    | nil => simp
    | cons next more => rw [List.intercalate_cons_cons, ih]; simp

/-! ## Splitting -/

/-- Splitting gives one text more than there are separators. -/
theorem length_splitOn (c : Char) (text : List Char) :
    (text.splitOn c).length = text.count c + 1 := by
  induction text with
  | nil => rfl
  | cons d text ih =>
    rw [List.splitOn_cons_eq_if_modifyHead, List.count_cons]
    split
    · rw [List.length_cons, ih]
    · rw [List.length_modifyHead, ih]

/-- The text is cut in three at its only two separators. -/
structure ThreeParts (c : Char) (text a b d : List Char) : Prop where
  text_eq : text = a ++ c :: b ++ c :: d
  left : c ∉ a
  middle : c ∉ b
  right : c ∉ d

theorem exists_threeParts_iff {c : Char} {text : List Char} :
    (∃ a b d, ThreeParts c text a b d) ↔ text.count c = 2 := by
  constructor
  · rintro ⟨a, b, d, rfl, ha, hb, hd⟩
    simp [List.count_eq_zero.2 ha, List.count_eq_zero.2 hb, List.count_eq_zero.2 hd]
  · intro h
    have hmem : c ∈ text := List.count_pos_iff.1 (by omega)
    obtain ⟨a, rest, rfl, ha⟩ := List.eq_append_cons_of_mem hmem
    rw [List.count_append, List.count_cons_self, List.count_eq_zero.2 ha] at h
    have hrest : c ∈ rest := List.count_pos_iff.1 (by omega)
    obtain ⟨b, d, rfl, hb⟩ := List.eq_append_cons_of_mem hrest
    rw [List.count_append, List.count_cons_self, List.count_eq_zero.2 hb] at h
    exact ⟨a, b, d, by simp, ha, hb, List.count_eq_zero.1 (by omega)⟩

end Text

open Text

namespace Span

/-- The span of the middle text of `before ++ text ++ after`. -/
def between (before text after : List Char) : Span :=
  ⟨before ++ text ++ after, byteLength before, byteLength text⟩

/-- The spans of consecutive texts, with a separator between neighbours. -/
def pieces (separator before after : List Char) : List (List Char) → List Span
  | [] => []
  | [text] => [between before text after]
  | text :: next :: more =>
    between before text (separator ++ separator.intercalate (next :: more) ++ after) ::
      pieces separator (before ++ text ++ separator) after (next :: more)

theorem pieces_nil_cons (before after text : List Char) (more : List (List Char)) :
    pieces [] before after (text :: more) =
      between before text (more.flatten ++ after) :: pieces [] (before ++ text) after more := by
  cases more with
  | nil => rfl
  | cons next more => rw [pieces, intercalate_nil_left, List.append_nil, List.nil_append]

section Between

variable (before text after : List Char)

theorem whole_eq_between : whole text = between [] text [] := by
  simp [whole, between]

@[simp] theorem source_between : (between before text after).source = before ++ text ++ after :=
  rfl

@[simp] theorem length_between : (between before text after).length = byteLength text := rfl

@[simp] theorem isEmpty_between : (between before text after).isEmpty = text.isEmpty := by
  rw [isEmpty, length_between, Bool.eq_iff_iff]
  simp

@[simp] theorem text_between : (between before text after).text = .ok text :=
  text_eq_ok_iff.2 ⟨before, after, rfl, rfl, rfl⟩

@[simp] theorem before_between : (between before text after).before = .ok before := by
  simp [Span.before, between, splitBytes?_byteLength]

end Between

/-! ## Parts of the span of a cut -/

/-- A part is cut out exactly if it covers characters of the span. -/
theorem slice_eq_ok_iff {s part : Span} {start length : Nat} :
    s.slice start length = .ok part ↔ part = ⟨s.source, s.start + start, length⟩ ∧
      ∃ left mid right, s.text = .ok (left ++ mid ++ right) ∧ byteLength left = start ∧
        byteLength mid = length := by
  constructor
  · intro h
    cases htext : s.text with
    | error f => simp [slice, htext] at h
    | ok text =>
      rw [slice, htext, ok_bind] at h
      cases hleft : splitBytes? start text with
      | none => simp [hleft] at h
      | some cut =>
        obtain ⟨left, rest⟩ := cut
        cases hmid : splitBytes? length rest with
        | none => simp [hleft, hmid] at h
        | some cut =>
          obtain ⟨mid, right⟩ := cut
          obtain ⟨rfl, hstart⟩ := splitBytes?_eq_some_iff.1 hleft
          obtain ⟨rfl, hlength⟩ := splitBytes?_eq_some_iff.1 hmid
          refine ⟨?_, left, mid, right, by rw [List.append_assoc], hstart, hlength⟩
          simpa [hleft, hmid, eq_comm] using h
  · rintro ⟨rfl, left, mid, right, htext, rfl, rfl⟩
    simp [slice, htext, List.append_assoc, splitBytes?_byteLength]

section Slices

variable (before left mid right after : List Char)

theorem slice_between :
    (between before (left ++ mid ++ right) after).slice (byteLength left) (byteLength mid) =
      .ok (between (before ++ left) mid (right ++ after)) := by
  rw [slice_eq_ok_iff]
  exact ⟨by simp [between], left, mid, right, text_between .., rfl, rfl⟩

theorem upTo_between :
    (between before (left ++ mid ++ right) after).upTo (byteLength left)
      (byteLength (left ++ mid)) = .ok (between (before ++ left) mid (right ++ after)) := by
  have hle : byteLength left ≤ byteLength (left ++ mid) :=
    byteLength_le_of_prefix (List.prefix_append ..)
  have hsub : byteLength (left ++ mid) - byteLength left = byteLength mid := by
    rw [byteLength_append, Nat.add_sub_cancel_left]
  rw [upTo, difference_eq_ok hle, ok_bind, hsub, slice_between]

/-- The part up to the end of the span. -/
theorem upTo_length_between :
    (between before (left ++ mid) after).upTo (byteLength left) (byteLength (left ++ mid)) =
      .ok (between (before ++ left) mid after) := by
  simpa using upTo_between before left mid [] after

/-- The part from the start of the span. -/
theorem slice_zero_between :
    (between before (mid ++ right) after).slice 0 (byteLength mid) =
      .ok (between before mid (right ++ after)) := by
  simpa using slice_between before [] mid right after

end Slices

/-! ## Operations on the span of a cut -/

section Operations

variable (before after : List Char)

theorem dropPrefix?_between (p text : List Char) :
    (between before (p ++ text) after).dropPrefix? p =
      .ok (some (between (before ++ p) text after)) := by
  have hp : p.isPrefixOf (p ++ text) = true := List.isPrefixOf_iff_prefix.2 (List.prefix_append ..)
  rw [dropPrefix?, text_between, ok_bind, if_pos hp, length_between, upTo_length_between, ok_bind]
  rfl

theorem dropPrefix?_between_eq_none {p text : List Char} (h : ¬ p <+: text) :
    (between before text after).dropPrefix? p = .ok none := by
  rw [dropPrefix?, text_between, ok_bind, if_neg (mt List.isPrefixOf_iff_prefix.1 h)]
  rfl

theorem dropSuffix?_between (text p : List Char) :
    (between before (text ++ p) after).dropSuffix? p =
      .ok (some (between before text (p ++ after))) := by
  have hp : p.isSuffixOf (text ++ p) = true := List.isSuffixOf_iff_suffix.2 (List.suffix_append ..)
  have hle : byteLength p ≤ byteLength (text ++ p) := byteLength_le_of_suffix (List.suffix_append ..)
  have hsub : byteLength (text ++ p) - byteLength p = byteLength text := by
    rw [byteLength_append, Nat.add_sub_cancel]
  rw [dropSuffix?, text_between, ok_bind, if_pos hp, length_between, difference_eq_ok hle, ok_bind,
    hsub, slice_zero_between, ok_bind]
  rfl

theorem dropSuffix?_between_eq_none {p text : List Char} (h : ¬ p <:+ text) :
    (between before text after).dropSuffix? p = .ok none := by
  rw [dropSuffix?, text_between, ok_bind, if_neg (mt List.isSuffixOf_iff_suffix.1 h)]
  rfl

theorem splitAt_between (left right : List Char) :
    (between before (left ++ right) after).splitAt (byteLength left) =
      .ok (between before left (right ++ after), between (before ++ left) right after) := by
  rw [splitAt, slice_zero_between, ok_bind, length_between, upTo_length_between, ok_bind]
  rfl

theorem cut?_between {c : Char} {left : List Char} (h : c ∉ left) (right : List Char) :
    (between before (left ++ c :: right) after).cut? c =
      .ok (some (between before left (c :: right ++ after),
        between (before ++ left ++ [c]) right after)) := by
  have hright := upTo_length_between before (left ++ [c]) right after
  simp only [List.append_assoc, List.singleton_append, byteLength_append, byteLength_cons,
    byteLength_nil, Nat.add_zero] at hright
  rw [cut?, find?, text_between, ok_bind, find?_singleton_of_not_mem h, pure_eq_ok, ok_bind]
  simp [slice_zero_between, hright]

theorem cut?_between_eq_none {c : Char} {text : List Char} (h : c ∉ text) :
    (between before text after).cut? c = .ok none := by
  simp [cut?, find?, find?_singleton_eq_none h]

/-- One caret stands under each character of the middle text, or under the first place behind the
text ahead of it if it is empty. -/
theorem underline_between (text : List Char) :
    (between before text after).underline =
      .ok (String.ofList (before ++ text ++ after ++ '\n' :: List.replicate before.length ' ' ++
        List.replicate (max text.length 1) '^' ++ ['\n'])) := by
  rw [underline, before_between, ok_bind, text_between, ok_bind]
  rfl

end Operations

/-! ## Scanners -/

section Scanners

variable (before after text : List Char)

/-- The text is cut in three: what is behind the scanner, the current part, which holds no
separator, and what is ahead. -/
theorem partsFrom_between {c : Char} (rest : List Char) :
    ∀ left mid : List Char, text = left ++ mid ++ rest → c ∉ mid →
      (between before text after).partsFrom c (byteLength left)
          (charOffsets (byteLength (left ++ mid)) rest) =
        .ok (pieces [c] (before ++ left) after ((mid ++ rest).splitOn c)) := by
  induction rest with
  | nil =>
    intro left mid htext hmid
    rw [List.append_nil] at htext ⊢
    subst htext
    rw [List.splitOn_eq_singleton hmid, charOffsets, partsFrom, length_between, upTo_length_between]
    rfl
  | cons d rest ih =>
    intro left mid htext hmid
    have hnext := byteLength_append_singleton (left ++ mid) d
    rw [charOffsets, partsFrom]
    by_cases hd : d = c
    · subst hd
      have hrest := ih (left ++ mid ++ [d]) [] (by simp [htext]) List.not_mem_nil
      rw [List.append_nil, List.nil_append] at hrest
      obtain ⟨next, more, hsplit⟩ := List.exists_cons_of_ne_nil (List.splitOn_ne_nil d rest)
      have hjoin : [d].intercalate (next :: more) = rest := by
        rw [← hsplit, List.intercalate_splitOn]
      rw [if_pos rfl, htext, upTo_between, ok_bind, ← htext, ← hnext, hrest, ok_bind,
        List.splitOn_append_cons_self_of_not_mem hmid, hsplit, pieces, hjoin]
      simp
    · have hmid' : c ∉ mid ++ [d] := by simp [hmid, Ne.symm hd]
      have hrest := ih left (mid ++ [d]) (by simp [htext]) hmid'
      rw [if_neg hd, ← hnext, List.append_assoc, hrest]
      simp

theorem splitOn_between (c : Char) :
    (between before text after).splitOn c =
      .ok (pieces [c] before after (text.splitOn c)) := by
  have hparts := partsFrom_between before after text text [] [] rfl (List.not_mem_nil (a := c))
  rw [splitOn, text_between, ok_bind]
  simpa using hparts

/-- The text is cut in three: what is behind the scanner, the current term, which has a first
character and no sign behind it, and what is ahead. -/
theorem termsFrom_between (rest : List Char) :
    ∀ (left : List Char) (first : Char) (mid : List Char), text = left ++ first :: mid ++ rest →
      (∀ c ∈ mid, isSign c = false) →
      (between before text after).termsFrom (byteLength left) (byteLength (left ++ first :: mid))
          (charOffsets (byteLength (left ++ first :: mid)) rest) =
        .ok (pieces [] (before ++ left) after (signedTerms (first :: mid ++ rest))) := by
  induction rest with
  | nil =>
    intro left first mid htext hmid
    rw [List.append_nil] at htext
    subst htext
    rw [signedTerms_cons_append hmid (.inl rfl), charOffsets, termsFrom, upTo_length_between]
    rfl
  | cons d rest ih =>
    intro left first mid htext hmid
    have hnext := byteLength_append_singleton (left ++ first :: mid) d
    rw [charOffsets, termsFrom]
    by_cases hd : isSign d = true
    · have hrest := ih (left ++ first :: mid) d [] (by simp [htext]) (by simp)
      rw [List.singleton_append] at hrest
      rw [if_pos hd, htext, upTo_between, ok_bind, ← htext, ← hnext, hrest, ok_bind,
        signedTerms_cons_append hmid (.inr ⟨d, rest, rfl, hd⟩), pieces_nil_cons,
        flatten_signedTerms, List.append_assoc before]
      rfl
    · have hmid' : ∀ c ∈ mid ++ [d], isSign c = false := by
        rw [List.forall_mem_append, List.forall_mem_singleton]
        exact ⟨hmid, Bool.eq_false_iff.2 hd⟩
      have hrest := ih left first (mid ++ [d]) (by simp [htext]) hmid'
      rw [if_neg hd, ← hnext, List.append_assoc, List.cons_append, hrest]
      simp

theorem terms_between :
    (between before text after).terms = .ok (pieces [] before after (signedTerms text)) := by
  rw [terms, text_between, ok_bind]
  cases text with
  | nil => rfl
  | cons c rest =>
    have hterms := termsFrom_between before after (c :: rest) rest [] c [] rfl (by simp)
    simpa [charOffsets] using hterms

end Scanners

/-! ## Few parts -/

section FewParts

variable {c : Char} {text a b d : List Char}

theorem length_pieces (separator before after : List Char) (texts : List (List Char)) :
    (pieces separator before after texts).length = texts.length := by
  fun_induction pieces separator before after texts with
  | case1 => rfl
  | case2 => rfl
  | case3 before text next more ih => simp only [List.length_cons, ih]

theorem splitOn_between_of_not_mem (h : c ∉ text) (before after : List Char) :
    (between before text after).splitOn c = .ok [between before text after] := by
  rw [splitOn_between, List.splitOn_eq_singleton h]
  rfl

theorem splitOn_between_append_cons (ha : c ∉ a) (hb : c ∉ b) (before after : List Char) :
    (between before (a ++ c :: b) after).splitOn c =
      .ok [between before a (c :: b ++ after), between (before ++ a ++ [c]) b after] := by
  rw [splitOn_between, List.splitOn_append_cons_self_of_not_mem ha, List.splitOn_eq_singleton hb]
  simp [pieces]

theorem splitOn_of_threeParts (h : ThreeParts c text a b d) (before after : List Char) :
    (between before text after).splitOn c =
      .ok [between before a (c :: b ++ c :: d ++ after),
        between (before ++ a ++ [c]) b (c :: d ++ after),
        between (before ++ a ++ [c] ++ b ++ [c]) d after] := by
  have hrest := List.splitOn_append_cons_self_of_not_mem h.middle d
  rw [splitOn_between, h.text_eq, List.append_assoc, List.cons_append,
    List.splitOn_append_cons_self_of_not_mem h.left, hrest, List.splitOn_eq_singleton h.right]
  simp [pieces]

/-- There is one part more than there are separators. -/
theorem exists_splitOn_between (before text after : List Char) (c : Char) :
    ∃ parts, (between before text after).splitOn c = .ok parts ∧
      parts.length = text.count c + 1 := by
  refine ⟨_, splitOn_between .., ?_⟩
  rw [length_pieces, length_splitOn]

end FewParts

/-! ## Parts of a source -/

/-- The span is that of the middle text of some cut of the source. -/
def IsPartOf (s : Span) (source : List Char) : Prop :=
  ∃ before text after, s = between before text after ∧ source = before ++ text ++ after

variable {s : Span} {source : List Char}

theorem isPartOf_whole (source : List Char) : (whole source).IsPartOf source :=
  ⟨[], source, [], whole_eq_between source, by simp⟩

theorem isPartOf_of_text {s : Span} {text : List Char} (h : s.text = .ok text) :
    s.IsPartOf s.source := by
  obtain ⟨before, after, hsource, hstart, hlength⟩ := text_eq_ok_iff.1 h
  refine ⟨before, text, after, ?_, hsource⟩
  rw [between, ← hsource, hstart, hlength]

theorem isPartOf_of_mem_pieces {separator after : List Char} {texts : List (List Char)} :
    ∀ {before : List Char}, s ∈ pieces separator before after texts →
      s.IsPartOf (before ++ separator.intercalate texts ++ after) := by
  induction texts with
  | nil => intro before h; cases h
  | cons text more ih =>
    intro before h
    cases more with
    | nil =>
      obtain rfl := List.mem_singleton.1 h
      exact ⟨before, text, after, rfl, by simp⟩
    | cons next more =>
      rcases List.mem_cons.1 h with rfl | h
      · exact ⟨before, text, _, rfl, by simp⟩
      · have := ih h
        simpa using this

namespace IsPartOf

/-- A part keeps the source it was cut out of. -/
theorem source_eq (h : s.IsPartOf source) : s.source = source := by
  obtain ⟨before, text, after, rfl, rfl⟩ := h
  rfl

/-- The first byte of a part is a position of the source in UTF-8. -/
theorem isValid_start (h : s.IsPartOf source) :
    (⟨s.start⟩ : String.Pos.Raw).IsValid (String.ofList source) := by
  obtain ⟨before, text, after, rfl, rfl⟩ := h
  have hpos : (⟨byteLength before⟩ : String.Pos.Raw) = (String.ofList before).rawEndPos :=
    congrArg String.Pos.Raw.mk (byteLength_eq_utf8ByteSize before)
  rw [List.append_assoc, String.ofList_append]
  exact (String.Pos.Raw.isValid_of_eq_rawEndPos hpos).append_right _

/-- The byte behind a part is a position of the source in UTF-8. -/
theorem isValid_end (h : s.IsPartOf source) :
    (⟨s.start + s.length⟩ : String.Pos.Raw).IsValid (String.ofList source) := by
  obtain ⟨before, text, after, rfl, rfl⟩ := h
  have hstart : (between (before ++ text) [] after).start =
      (between before text after).start + (between before text after).length := by
    simp [between]
  rw [← hstart]
  exact isValid_start ⟨before ++ text, [], after, rfl, by simp⟩

theorem exists_text (h : s.IsPartOf source) : ∃ text, s.text = .ok text := by
  obtain ⟨before, text, after, rfl, rfl⟩ := h
  exact ⟨text, text_between ..⟩

theorem exists_underline (h : s.IsPartOf source) : ∃ marked, s.underline = .ok marked := by
  obtain ⟨before, text, after, rfl, rfl⟩ := h
  exact ⟨_, underline_between before after text⟩

theorem dropPrefix? (h : s.IsPartOf source) (p : List Char) :
    ∃ result, s.dropPrefix? p = .ok result ∧ ∀ s' ∈ result, s'.IsPartOf source := by
  obtain ⟨before, text, after, rfl, rfl⟩ := h
  by_cases hp : p <+: text
  · obtain ⟨text, rfl⟩ := hp
    refine ⟨_, dropPrefix?_between before after p text, fun s' hs' => ?_⟩
    obtain rfl := Option.some.inj hs'
    exact ⟨_, _, _, rfl, by simp⟩
  · exact ⟨none, dropPrefix?_between_eq_none before after hp, by simp⟩

theorem dropSuffix? (h : s.IsPartOf source) (p : List Char) :
    ∃ result, s.dropSuffix? p = .ok result ∧ ∀ s' ∈ result, s'.IsPartOf source := by
  obtain ⟨before, text, after, rfl, rfl⟩ := h
  by_cases hp : p <:+ text
  · obtain ⟨text, rfl⟩ := hp
    refine ⟨_, dropSuffix?_between before after text p, fun s' hs' => ?_⟩
    obtain rfl := Option.some.inj hs'
    exact ⟨_, _, _, rfl, by simp⟩
  · exact ⟨none, dropSuffix?_between_eq_none before after hp, by simp⟩

theorem cut? (h : s.IsPartOf source) (c : Char) :
    ∃ result, s.cut? c = .ok result ∧
      ∀ sides ∈ result, sides.1.IsPartOf source ∧ sides.2.IsPartOf source := by
  obtain ⟨before, text, after, rfl, rfl⟩ := h
  by_cases hc : c ∈ text
  · obtain ⟨left, right, rfl, hleft⟩ := List.eq_append_cons_of_mem hc
    refine ⟨_, cut?_between before after hleft right, fun sides hsides => ?_⟩
    obtain rfl := Option.some.inj hsides
    exact ⟨⟨_, _, _, rfl, by simp⟩, ⟨_, _, _, rfl, by simp⟩⟩
  · exact ⟨none, cut?_between_eq_none before after hc, by simp⟩

theorem splitOn (h : s.IsPartOf source) (c : Char) :
    ∃ parts, s.splitOn c = .ok parts ∧ ∀ s' ∈ parts, s'.IsPartOf source := by
  obtain ⟨before, text, after, rfl, rfl⟩ := h
  refine ⟨_, splitOn_between before after text c, fun s' hs' => ?_⟩
  have := isPartOf_of_mem_pieces hs'
  rwa [List.intercalate_splitOn] at this

theorem terms (h : s.IsPartOf source) :
    ∃ parts, s.terms = .ok parts ∧ ∀ s' ∈ parts, s'.IsPartOf source := by
  obtain ⟨before, text, after, rfl, rfl⟩ := h
  refine ⟨_, terms_between before after text, fun s' hs' => ?_⟩
  have := isPartOf_of_mem_pieces hs'
  rwa [intercalate_nil_left, flatten_signedTerms] at this

end IsPartOf

end Span

end PlotSheet
