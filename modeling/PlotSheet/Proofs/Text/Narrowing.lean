import Mathlib.Data.List.Chain
import PlotSheet.Proofs.Text.Cut

/-!
# Chains of parts

A part of a span can be cut again, and so on: a chain of operations narrows the span step by step.
Each operation has a counterpart on plain texts that knows no source and no offsets. Along a chain
of any length the spans cover exactly what the counterparts give, each of them lies in the one that
it is cut out of, and all of them keep the source and its character boundaries.

## Main definitions

* `Narrowing`: the operations that take one part of a text
* `Narrowing.ofSpan`, `Narrowing.ofText?`: an operation on spans, and on plain texts
* `Narrowing.Fits`: the offsets of an operation lie in the text, on character boundaries
* `Narrowing.alongSpan`, `Narrowing.alongText`, `Narrowing.FitAlong`: chains of operations
* `Text.IsBoundary`: the places between two characters
* `Span.Located`: the span of a part stands at the place of the part

## Main results

* `Narrowing.located_ofSpan`: one operation gives the span of what it gives on the text
* `Narrowing.alongSpan_between`: so does a chain, from any part of a source
* `Narrowing.alongSpan_whole`: the spans along a chain that starts with a whole text
-/

namespace PlotSheet

open Text

/-- An operation that takes one part of a text. -/
inductive Narrowing where
  /-- What follows the given start. -/
  | dropPrefix (start : List Char)
  /-- What precedes the given end. -/
  | dropSuffix (ending : List Char)
  /-- The piece with a number among those between the occurrences of a separator. -/
  | piece (separator : Char) (i : Nat)
  /-- What precedes the first occurrence of a separator. -/
  | ahead (separator : Char)
  /-- What follows the first occurrence of a separator. -/
  | behind (separator : Char)
  /-- The signed term with a number. -/
  | term (i : Nat)
  /-- The given number of bytes from a byte on. -/
  | slice (start length : Nat)
  /-- What precedes a byte. -/
  | upTo (i : Nat)
  /-- What follows from a byte on. -/
  | beyond (i : Nat)

namespace Text

/-- The byte is a position of the text in UTF-8. -/
abbrev IsBoundary (text : List Char) (i : Nat) : Prop :=
  (⟨i⟩ : String.Pos.Raw).IsValid (String.ofList text)

/-- The boundaries of a text are the places where it can be cut. -/
theorem isBoundary_iff {text : List Char} {i : Nat} :
    IsBoundary text i ↔ ∃ left right, text = left ++ right ∧ byteLength left = i := by
  rw [IsBoundary, String.Pos.Raw.isValid_ofList]
  constructor
  · rintro ⟨n, hn⟩
    exact ⟨text.take n, text.drop n, (List.take_append_drop n text).symm,
      (byteLength_eq_utf8ByteSize _).trans hn.symm⟩
  · rintro ⟨left, right, rfl, rfl⟩
    refine ⟨left.length, ?_⟩
    rw [List.take_left, ← byteLength_eq_utf8ByteSize]

/-- Two boundaries cut a text in three. -/
theorem exists_append_of_isBoundary {text : List Char} {start length : Nat}
    (hstart : IsBoundary text start) (hstop : IsBoundary text (start + length)) :
    ∃ left part right, text = left ++ part ++ right ∧ byteLength left = start ∧
      byteLength part = length := by
  obtain ⟨left, rest, rfl, rfl⟩ := isBoundary_iff.1 hstart
  obtain ⟨both, right, hboth, hlength⟩ := isBoundary_iff.1 hstop
  rcases List.append_eq_append_iff.1 hboth with ⟨part, rfl, rfl⟩ | ⟨part, rfl, rfl⟩
  · refine ⟨left, part, right, (List.append_assoc ..).symm, rfl, ?_⟩
    rwa [byteLength_append, Nat.add_left_cancel_iff] at hlength
  · have hpart : byteLength part = 0 ∧ length = 0 := by
      rw [byteLength_append] at hlength
      omega
    obtain rfl := byteLength_eq_zero_iff.1 hpart.1
    exact ⟨both, [], rest, by simp, by simp, hpart.2.symm⟩

theorem dropPrefix?_eq_none {start text : List Char} (h : ¬ start <+: text) :
    text.dropPrefix? start = none := by
  rw [Option.eq_none_iff_forall_ne_some]
  intro rest hrest
  obtain ⟨start', rfl, hstart⟩ := List.dropPrefix?_eq_some_iff.1 hrest
  exact h (eq_of_beq hstart ▸ List.prefix_append ..)

theorem dropSuffix?_eq_none {ending text : List Char} (h : ¬ ending <:+ text) :
    text.dropSuffix? ending = none := by
  rw [Option.eq_none_iff_forall_ne_some]
  intro rest hrest
  obtain ⟨ending', rfl, hending⟩ := List.dropSuffix?_eq_some_iff.1 hrest
  exact h (eq_of_beq hending ▸ List.suffix_append ..)

end Text

namespace Span

/-- The result is the span of a part of the middle text at its place in the source, if there is a
part. -/
inductive Located (before text after : List Char) : Option (List Char) → Option Span → Prop
  | none : Located before text after none none
  | some (left part right : List Char) : text = left ++ part ++ right →
    Located before text after (some part) (some (between (before ++ left) part (right ++ after)))

section Located

variable (before after left part right : List Char)

theorem located_left : Located before (part ++ right) after (some part)
    (some (between before part (right ++ after))) := by
  have h : Located before ([] ++ part ++ right) after (some part)
      (some (between (before ++ []) part (right ++ after))) := .some [] part right rfl
  rwa [List.nil_append, List.append_nil] at h

theorem located_right : Located before (left ++ part) after (some part)
    (some (between (before ++ left) part after)) := by
  have h : Located before (left ++ part ++ []) after (some part)
      (some (between (before ++ left) part ([] ++ after))) := .some left part [] rfl
  rwa [List.nil_append, List.append_nil] at h

end Located

/-- The span is a part of another one. -/
structure LiesIn (part s : Span) : Prop where
  source_eq : part.source = s.source
  start_le : s.start ≤ part.start
  stop_le : part.start + part.length ≤ s.start + s.length

theorem liesIn_between (before left part right after : List Char) :
    (between (before ++ left) part (right ++ after)).LiesIn
      (between before (left ++ part ++ right) after) where
  source_eq := by simp
  start_le := by simp [between]
  stop_le := by
    simp only [between, byteLength_append]
    omega

/-- The pieces of joined texts stand at the places of the texts. -/
theorem located_pieces (separator after : List Char) (texts : List (List Char)) :
    ∀ (before : List Char) (i : Nat), Located before (separator.intercalate texts) after texts[i]?
      (pieces separator before after texts)[i]? := by
  induction texts with
  | nil => exact fun _ _ => .none
  | cons text more ih =>
    intro before i
    cases more with
    | nil =>
      cases i with
      | zero => simpa [pieces] using located_left before after text []
      | succ i => exact .none
    | cons next more =>
      rw [pieces, List.intercalate_cons_cons]
      cases i with
      | zero =>
        simpa using
          located_left before after text (separator ++ separator.intercalate (next :: more))
      | succ i =>
        rw [List.getElem?_cons_succ, List.getElem?_cons_succ]
        generalize hpart : (next :: more)[i]? = part?
        generalize hpiece : (pieces separator (before ++ text ++ separator) after
          (next :: more))[i]? = piece?
        have hrest := ih (before ++ text ++ separator) i
        rw [hpart, hpiece] at hrest
        cases hrest with
        | none => exact .none
        | some left part right htext =>
          have hlater : Located before (text ++ separator ++ left ++ part ++ right) after
              (some part) (some (between (before ++ (text ++ separator ++ left)) part
                (right ++ after))) := .some (text ++ separator ++ left) part right rfl
          simpa [htext] using hlater

end Span

namespace Narrowing

open PlotSheet.Span

/-! ## One operation -/

/-- The part of a span that the operation takes, if there is one. -/
def ofSpan (s : Span) : Narrowing → Except Fault (Option Span)
  | dropPrefix start => s.dropPrefix? start
  | dropSuffix ending => s.dropSuffix? ending
  | piece separator i => do return (← s.splitOn separator)[i]?
  | ahead separator => do return (← s.cut? separator).map Prod.fst
  | behind separator => do return (← s.cut? separator).map Prod.snd
  | term i => do return (← s.terms)[i]?
  | slice start length => do return some (← s.slice start length)
  | upTo i => do return some (← s.splitAt i).1
  | beyond i => do return some (← s.splitAt i).2

/-- The part of a plain text that the operation takes, if there is one. -/
def ofText? (text : List Char) : Narrowing → Option (List Char)
  | dropPrefix start => text.dropPrefix? start
  | dropSuffix ending => text.dropSuffix? ending
  | piece separator i => (text.splitOn separator)[i]?
  | ahead separator =>
    if separator ∈ text then some (text.takeWhile (· != separator)) else none
  | behind separator =>
    if separator ∈ text then some (text.dropWhile (· != separator)).tail else none
  | term i => (signedTerms text)[i]?
  | slice start length => do
    let (_, rest) ← splitBytes? start text
    let (part, _) ← splitBytes? length rest
    return part
  | upTo i => (splitBytes? i text).map Prod.fst
  | beyond i => (splitBytes? i text).map Prod.snd

/-- The offsets of the operation lie in the text, on character boundaries. -/
def Fits (text : List Char) : Narrowing → Prop
  | slice start length => IsBoundary text start ∧ IsBoundary text (start + length)
  | upTo i | beyond i => IsBoundary text i
  | _ => True

section Step

variable (before after : List Char)

/-- The text up to the first separator. -/
theorem ofText?_ahead_of_mem {c : Char} {left : List Char} (h : c ∉ left) (right : List Char) :
    ofText? (left ++ c :: right) (ahead c) = some left := by
  have hleft : ∀ d ∈ left, (d != c) = true := fun d hd => bne_iff_ne.2 fun hdc => h (hdc ▸ hd)
  rw [ofText?, if_pos (by simp), List.takeWhile_append_of_pos hleft]
  simp

/-- The text behind the first separator. -/
theorem ofText?_behind_of_mem {c : Char} {left : List Char} (h : c ∉ left) (right : List Char) :
    ofText? (left ++ c :: right) (behind c) = some right := by
  have hleft : ∀ d ∈ left, (d != c) = true := fun d hd => bne_iff_ne.2 fun hdc => h (hdc ▸ hd)
  rw [ofText?, if_pos (by simp), List.dropWhile_append_of_pos hleft]
  simp

/-- **One operation.** On the span of a part of a source, an operation gives the span of what it
gives on the text of that part. -/
theorem located_ofSpan {text : List Char} (n : Narrowing) (h : n.Fits text) :
    ∃ result, n.ofSpan (between before text after) = .ok result ∧
      Located before text after (n.ofText? text) result := by
  cases n with
  | dropPrefix start =>
    by_cases hstart : start <+: text
    · obtain ⟨rest, rfl⟩ := hstart
      refine ⟨_, dropPrefix?_between before after start rest, ?_⟩
      rw [ofText?, List.dropPrefix?_append_of_beq rest (BEq.refl start)]
      exact located_right before after start rest
    · refine ⟨none, dropPrefix?_between_eq_none before after hstart, ?_⟩
      rw [ofText?, dropPrefix?_eq_none hstart]
      exact .none
  | dropSuffix ending =>
    by_cases hending : ending <:+ text
    · obtain ⟨rest, rfl⟩ := hending
      refine ⟨_, dropSuffix?_between before after rest ending, ?_⟩
      rw [ofText?, List.dropSuffix?_eq_some_iff.2 ⟨ending, rfl, BEq.refl ending⟩]
      exact located_left before after rest ending
    · refine ⟨none, dropSuffix?_between_eq_none before after hending, ?_⟩
      rw [ofText?, dropSuffix?_eq_none hending]
      exact .none
  | piece separator i =>
    have hpieces := located_pieces [separator] after (text.splitOn separator) before i
    rw [List.intercalate_splitOn] at hpieces
    refine ⟨_, ?_, hpieces⟩
    rw [ofSpan, splitOn_between]
    rfl
  | ahead separator =>
    by_cases hmem : separator ∈ text
    · obtain ⟨left, right, rfl, hleft⟩ := List.eq_append_cons_of_mem hmem
      refine ⟨some (between before left (separator :: right ++ after)), ?_, ?_⟩
      · rw [ofSpan, cut?_between before after hleft]
        rfl
      · rw [ofText?_ahead_of_mem hleft]
        exact located_left before after left (separator :: right)
    · refine ⟨none, ?_, ?_⟩
      · rw [ofSpan, cut?_between_eq_none before after hmem]
        rfl
      · rw [ofText?, if_neg hmem]
        exact .none
  | behind separator =>
    by_cases hmem : separator ∈ text
    · obtain ⟨left, right, rfl, hleft⟩ := List.eq_append_cons_of_mem hmem
      refine ⟨some (between (before ++ left ++ [separator]) right after), ?_, ?_⟩
      · rw [ofSpan, cut?_between before after hleft]
        rfl
      · rw [ofText?_behind_of_mem hleft]
        simpa using located_right before after (left ++ [separator]) right
    · refine ⟨none, ?_, ?_⟩
      · rw [ofSpan, cut?_between_eq_none before after hmem]
        rfl
      · rw [ofText?, if_neg hmem]
        exact .none
  | term i =>
    have hpieces := located_pieces [] after (signedTerms text) before i
    rw [intercalate_nil_left, flatten_signedTerms] at hpieces
    refine ⟨_, ?_, hpieces⟩
    rw [ofSpan, terms_between]
    rfl
  | slice start length =>
    obtain ⟨left, part, right, rfl, rfl, rfl⟩ := exists_append_of_isBoundary h.1 h.2
    have htext : ofText? (left ++ part ++ right) (slice (byteLength left) (byteLength part)) =
        some part := by
      simp [ofText?, List.append_assoc, splitBytes?_byteLength]
    refine ⟨some (between (before ++ left) part (right ++ after)), ?_, ?_⟩
    · rw [ofSpan, slice_between]
      rfl
    · rw [htext]
      exact .some left part right rfl
  | upTo i =>
    obtain ⟨left, right, rfl, rfl⟩ := isBoundary_iff.1 h
    refine ⟨some (between before left (right ++ after)), ?_, ?_⟩
    · rw [ofSpan, splitAt_between]
      rfl
    · rw [ofText?, splitBytes?_byteLength]
      exact located_left before after left right
  | beyond i =>
    obtain ⟨left, right, rfl, rfl⟩ := isBoundary_iff.1 h
    refine ⟨some (between (before ++ left) right after), ?_, ?_⟩
    · rw [ofSpan, splitAt_between]
      rfl
    · rw [ofText?, splitBytes?_byteLength]
      exact located_right before after left right

end Step

/-! ## Chains of operations -/

/-- The spans along a chain, up to an operation that takes no part. -/
def alongSpan : List Narrowing → Span → Except Fault (List Span)
  | [], _ => return []
  | n :: chain, s => do
    match ← n.ofSpan s with
    | none => return []
    | some part => return part :: (← alongSpan chain part)

/-- The plain texts along a chain, up to an operation that takes no part. -/
def alongText : List Narrowing → List Char → List (List Char)
  | [], _ => []
  | n :: chain, text =>
    match n.ofText? text with
    | none => []
    | some part => part :: alongText chain part

/-- The offsets of each operation lie in the text that the operation is applied to. -/
def FitAlong : List Narrowing → List Char → Prop
  | [], _ => True
  | n :: chain, text => n.Fits text ∧ ∀ part ∈ n.ofText? text, FitAlong chain part

instance (text : List Char) : (n : Narrowing) → Decidable (n.Fits text)
  | slice start length =>
    inferInstanceAs (Decidable (IsBoundary text start ∧ IsBoundary text (start + length)))
  | upTo i | beyond i => inferInstanceAs (Decidable (IsBoundary text i))
  | dropPrefix _ | dropSuffix _ | piece _ _ | ahead _ | behind _ | term _ => .isTrue trivial

instance FitAlong.decidable :
    (chain : List Narrowing) → (text : List Char) → Decidable (FitAlong chain text)
  | [], _ => .isTrue trivial
  | n :: chain, text =>
    have := decidable chain
    inferInstanceAs (Decidable (n.Fits text ∧ ∀ part ∈ n.ofText? text, FitAlong chain part))

/-- The spans along a chain that starts with a part of a source. -/
theorem alongSpan_between (chain : List Narrowing) :
    ∀ before text after : List Char, FitAlong chain text →
      ∃ parts, alongSpan chain (between before text after) = .ok parts ∧
        parts.map Span.text = (alongText chain text).map .ok ∧
        (between before text after :: parts).IsChain (fun s part => part.LiesIn s) ∧
        ∀ part ∈ parts, part.IsPartOf (before ++ text ++ after) := by
  induction chain with
  | nil => exact fun before text after _ => ⟨[], rfl, rfl, .singleton _, nofun⟩
  | cons n chain ih =>
    rintro before text after ⟨hfits, hchain⟩
    obtain ⟨result, hresult, hlocated⟩ := located_ofSpan before after n hfits
    rw [alongSpan, alongText, hresult, ok_bind]
    generalize n.ofText? text = part? at hchain hlocated ⊢
    cases hlocated with
    | none => exact ⟨[], rfl, rfl, .singleton _, nofun⟩
    | some left part right htext =>
      subst htext
      obtain ⟨parts, hparts, htexts, hlies, hmem⟩ :=
        ih (before ++ left) part (right ++ after) (hchain part rfl)
      have hsource : before ++ left ++ part ++ (right ++ after) =
          before ++ (left ++ part ++ right) ++ after := by simp
      rw [hsource] at hmem
      refine ⟨between (before ++ left) part (right ++ after) :: parts, ?_, ?_, ?_, ?_⟩
      · simp only [hparts, ok_bind, pure_eq_ok]
      · rw [List.map_cons, List.map_cons, text_between, htexts]
      · exact .cons_cons (liesIn_between before left part right after) hlies
      · exact List.forall_mem_cons.2 ⟨⟨_, _, _, rfl, hsource.symm⟩, hmem⟩

/-- **Chains of parts.** A chain of operations on a whole text, however long, succeeds if its
offsets lie on character boundaries of the texts that they refer to. Its spans cover exactly the
texts that the same operations give on plain texts. Each of them keeps the source, lies in the span
that it is cut out of, and has both ends in the source on character boundaries. -/
theorem alongSpan_whole (source : List Char) (chain : List Narrowing)
    (h : FitAlong chain source) :
    ∃ parts, alongSpan chain (whole source) = .ok parts ∧
      parts.map Span.text = (alongText chain source).map .ok ∧
      (whole source :: parts).IsChain (fun s part => part.LiesIn s) ∧
      ∀ part ∈ parts, part.source = source ∧
        part.start + part.length ≤ (String.ofList source).utf8ByteSize ∧
        IsBoundary source part.start ∧ IsBoundary source (part.start + part.length) := by
  obtain ⟨parts, hparts, htexts, hlies, hmem⟩ := alongSpan_between chain [] source [] h
  rw [← whole_eq_between] at hparts hlies
  refine ⟨parts, hparts, htexts, hlies, fun part hpart => ?_⟩
  have hpart : part.IsPartOf source := by simpa using hmem part hpart
  exact ⟨hpart.source_eq, hpart.isValid_end.le_utf8ByteSize, hpart.isValid_start, hpart.isValid_end⟩

/-- All kinds of operations in one chain, on characters of one, two and three bytes. The last one
finds no separator. -/
theorem alongSpan_whole_allKinds :
    ∃ (source : List Char) (chain : List Narrowing) (parts : List Span),
      source = "y=2x²+√π-2(3π·π√½);0".toList ∧
      chain = [.ahead ';', .dropPrefix "y=".toList, .term 2, .behind '(', .dropSuffix ")".toList,
        .piece '·' 1, .slice 2 5, .beyond 3, .upTo 2, .ahead ';'] ∧
      parts = [⟨source, 0, 28⟩, ⟨source, 2, 26⟩, ⟨source, 12, 16⟩, ⟨source, 15, 13⟩,
        ⟨source, 15, 12⟩, ⟨source, 20, 7⟩, ⟨source, 22, 5⟩, ⟨source, 25, 2⟩, ⟨source, 25, 2⟩] ∧
      FitAlong chain source ∧ alongSpan chain (whole source) = .ok parts ∧
      parts.map Span.text = (alongText chain source).map .ok ∧
      (whole source :: parts).IsChain (fun s part => part.LiesIn s) := by
  have hfit : FitAlong [.ahead ';', .dropPrefix "y=".toList, .term 2, .behind '(',
      .dropSuffix ")".toList, .piece '·' 1, .slice 2 5, .beyond 3, .upTo 2, .ahead ';']
      "y=2x²+√π-2(3π·π√½);0".toList := by decide
  obtain ⟨parts, hparts, htexts, hlies, -⟩ := alongSpan_whole _ _ hfit
  obtain rfl := Except.ok.inj hparts
  exact ⟨_, _, _, rfl, rfl, rfl, hfit, rfl, htexts, hlies⟩

end Narrowing

end PlotSheet
