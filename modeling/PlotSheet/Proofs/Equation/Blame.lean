import PlotSheet.Proofs.Equation.Call
import PlotSheet.Proofs.Equation.Polynomial

/-!
# Where errors are blamed

Every error of an equation is blamed on a part of the cleaned equation: a stretch of it between two
character boundaries. This holds of every step of reading, however deep it works in parts of
parts. A bound with pi spelt out is evaluated as a text of its own, whose errors are moved back to
the bound. No step breaks a promise of the library.

## Main definitions

* `BlamesWithin`: a result without a fault, with any error blamed on a part of a source

## Main results

* `readParametric_blamesWithin`: reading a parametric equation blames its parts
* `parse_error_located`: the blamed span of every error lies in the cleaned equation, on
  boundaries of its UTF-8 form
-/

namespace PlotSheet.Equation

open PlotSheet.Span Text

/-- The result is no fault, and any error blames a part of the source. -/
def BlamesWithin {β : Type} (source : List Char) : Except Failure β → Prop
  | .ok _ => True
  | .error (.invalid e) => e.span.IsPartOf source
  | .error (.fault _) => False

/-! ## Sequences of steps -/

section Steps

variable {β γ : Type} {source : List Char}

theorem BlamesWithin.bind {x : Except Failure β} {f : β → Except Failure γ}
    (hx : BlamesWithin source x) (hf : ∀ b, BlamesWithin source (f b)) :
    BlamesWithin source (x >>= f) := by
  match x, hx with
  | .ok b, _ => exact hf b
  | .error (.invalid e), hx => exact hx

theorem BlamesWithin.map {x : Except Failure β} (hx : BlamesWithin source x) (f : β → γ) :
    BlamesWithin source (x.map f) := by
  match x, hx with
  | .ok b, _ => trivial
  | .error (.invalid e), hx => exact hx

/-- Errors of a text of its own are moved to the span that is blamed for them. -/
theorem BlamesWithin.relocate {s : Span} (h : s.IsPartOf source) {source' : List Char}
    {x : Except Failure β} (hx : BlamesWithin source' x) :
    BlamesWithin source (relocate s x) := by
  match x, hx with
  | .ok b, _ => exact trivial
  | .error (.invalid e), _ => exact h

end Steps

/-! ## Parametric equations -/

section Parametric

variable {source : List Char} {s : Span}

theorem readLiteral_blamesWithin (h : s.IsPartOf source) (cause : LiteralError → Cause) :
    BlamesWithin source (readLiteral cause s) := by
  obtain ⟨text, htext⟩ := h.exists_text
  rw [readLiteral, htext, lift_ok, ok_bind]
  cases Literal.read text with
  | ok l => exact trivial
  | error e => exact h

theorem readFactor_blamesWithin (h : s.IsPartOf source) (cause : LiteralError → Cause) :
    BlamesWithin source (readFactor cause s) := by
  obtain ⟨text, htext⟩ := h.exists_text
  rw [readFactor, htext, lift_ok, ok_bind]
  split
  · exact trivial
  · exact trivial
  · exact trivial
  · exact readLiteral_blamesWithin h cause

theorem readInner_blamesWithin (h : s.IsPartOf source) : BlamesWithin source (readInner s) := by
  obtain ⟨text, htext⟩ := h.exists_text
  rw [readInner, htext, lift_ok, ok_bind]
  split
  · exact trivial
  · exact readFactor_blamesWithin h .number

variable {α : Type} [Scalar α]

theorem readCoordinate_blamesWithin (h : s.IsPartOf source) :
    BlamesWithin source (readCoordinate (α := α) s) := by
  obtain ⟨before, text, after, rfl, rfl⟩ := h
  cases hcall : onlyCall? text with
  | none =>
    rw [readCoordinate, text_between, lift_ok, ok_bind, hcall]
    exact ⟨before, text, after, rfl, rfl⟩
  | some call =>
    obtain ⟨f, i⟩ := call
    obtain ⟨l, r, rfl, rfl⟩ := exists_of_onlyCall? hcall
    have hpart : (between (before ++ l ++ callPattern f) r after).IsPartOf
        (before ++ (l ++ callPattern f ++ r) ++ after) := ⟨_, _, _, rfl, by simp⟩
    obtain ⟨inner, hinner, hinnerPart⟩ := hpart.dropSuffix? ['t', ')']
    rw [readCoordinate_of_onlyCall? before after hcall, hinner, lift_ok, ok_bind]
    cases inner with
    | none => exact hpart
    | some inner =>
      apply (readFactor_blamesWithin ⟨_, _, _, rfl, by simp⟩ .number).bind
      intro outer
      exact (readInner_blamesWithin (hinnerPart inner rfl)).bind fun _ => trivial

theorem readProduct_blamesWithin (h : s.IsPartOf source) :
    BlamesWithin source (readProduct (α := α) s) := by
  obtain ⟨parts, hparts, hmem⟩ := h.splitOn '*'
  rw [readProduct, hparts, lift_ok, ok_bind]
  split
  · next factor =>
    exact (readLiteral_blamesWithin (hmem factor (by simp)) .number).bind fun _ => trivial
  · next left right =>
    apply (readLiteral_blamesWithin (hmem left (by simp)) .number).bind
    intro l
    exact (readLiteral_blamesWithin (hmem right (by simp)) .number).bind fun _ => trivial
  · exact h

theorem readBound_blamesWithin (h : s.IsPartOf source) :
    BlamesWithin source (readBound (α := α) s) := by
  obtain ⟨text, htext⟩ := h.exists_text
  rw [readBound, htext, lift_ok, ok_bind]
  dsimp only
  split
  · exact readProduct_blamesWithin h
  · exact .relocate h (readProduct_blamesWithin (isPartOf_whole (spellPi text)))

theorem readRange_blamesWithin (h : s.IsPartOf source) :
    BlamesWithin source (readRange (α := α) s) := by
  obtain ⟨parts, hparts, hmem⟩ := h.splitOn '<'
  rw [readRange, hparts, lift_ok, ok_bind]
  split
  · next lower parameter upper =>
    have hparameter := hmem parameter (by simp)
    obtain ⟨text, htext⟩ := hparameter.exists_text
    rw [htext, lift_ok, ok_bind]
    split
    · exact hparameter
    · apply (readBound_blamesWithin (hmem lower (by simp))).bind
      intro start
      apply (readBound_blamesWithin (hmem upper (by simp))).bind
      intro stop
      split
      · exact h
      · trivial
  · exact h

theorem readParametric_blamesWithin (h : s.IsPartOf source) :
    BlamesWithin source (readParametric (α := α) s) := by
  obtain ⟨parts, hparts, hmem⟩ := h.splitOn ';'
  rw [readParametric, hparts, lift_ok, ok_bind]
  split
  · next xPart yPart range =>
    have hx := hmem xPart (by simp)
    have hy := hmem yPart (by simp)
    obtain ⟨xExpression, hxDrop, hxPart⟩ := hx.dropPrefix? ['x', '=']
    obtain ⟨yExpression, hyDrop, hyPart⟩ := hy.dropPrefix? ['y', '=']
    rw [hxDrop, lift_ok, ok_bind]
    cases xExpression with
    | none => exact hx
    | some xExpression =>
      dsimp only
      rw [hyDrop, lift_ok, ok_bind]
      cases yExpression with
      | none => exact hy
      | some yExpression =>
        apply (readCoordinate_blamesWithin (hxPart xExpression rfl)).bind
        intro x
        apply (readCoordinate_blamesWithin (hyPart yExpression rfl)).bind
        intro y
        exact (readRange_blamesWithin (hmem range (by simp))).bind fun _ => trivial
  · exact h

/-- A bound with pi spelt out is blamed as a whole, not a place in the longer text. -/
theorem readBound_error_of_spellPi_ne (h : s.IsPartOf source) {text : List Char}
    (htext : s.text = .ok text) (hpi : spellPi text ≠ text) {f : Failure}
    (hf : readBound (α := α) s = .error f) : ∃ cause, f = .invalid ⟨cause, s⟩ := by
  have hwithin := readBound_blamesWithin (α := α) h
  rw [hf] at hwithin
  rw [readBound, htext, lift_ok, ok_bind] at hf
  dsimp only at hf
  rw [if_neg hpi] at hf
  cases hread : readProduct (α := α) (.whole (spellPi text)) with
  | ok a => rw [hread] at hf; cases hf
  | error g =>
    rw [hread] at hf
    cases g with
    | invalid e => exact ⟨e.cause, (Except.error.inj hf).symm⟩
    | fault g =>
      -- a fault is not moved, but no part of the source gives one
      obtain rfl := Except.error.inj hf
      exact hwithin.elim

end Parametric

/-! ## Equations -/

variable {α : Type} [Scalar α]

theorem parse_blamesWithin (most : Nat) (text : String) :
    BlamesWithin (withoutBlanks text.toList) (parse (α := α) most text) := by
  by_cases h : ';' ∈ withoutBlanks text.toList ∧ '<' ∈ withoutBlanks text.toList
  · rw [parse_of_parametric most h]
    exact (readParametric_blamesWithin (isPartOf_whole _)).map _
  · rw [parse_of_not_parametric most h]
    rcases readPolynomial_cases (α := α) most (withoutBlanks text.toList) with
      ⟨terms, -, -, hread⟩ | ⟨e, hread, hpart⟩
    · rw [hread]
      trivial
    · rw [hread]
      exact hpart

/-- **Errors are located in the equation.** No text makes the library break a promise of its own,
and every error blames a stretch of the cleaned text between two boundaries of its UTF-8 form; the
errors of a bound with pi spelt out blame that bound. -/
theorem parse_error_located (most : Nat) (text : String) :
    (∀ f, parse (α := α) most text = .error f → ∃ e, f = .invalid e ∧
      e.span.source = withoutBlanks text.toList ∧
      e.span.start + e.span.length ≤ (String.ofList (withoutBlanks text.toList)).utf8ByteSize ∧
      (⟨e.span.start⟩ : String.Pos.Raw).IsValid (String.ofList (withoutBlanks text.toList)) ∧
      (⟨e.span.start + e.span.length⟩ : String.Pos.Raw).IsValid
        (String.ofList (withoutBlanks text.toList))) ∧
    (∀ (bound : Span) (written : List Char) (f : Failure),
      bound.IsPartOf (withoutBlanks text.toList) → bound.text = .ok written →
      spellPi written ≠ written → readBound (α := α) bound = .error f →
      ∃ cause, f = .invalid ⟨cause, bound⟩) := by
  constructor
  · intro f hf
    have hwithin := parse_blamesWithin (α := α) most text
    rw [hf] at hwithin
    cases f with
    | fault f => exact hwithin.elim
    | invalid e =>
      have hpart : e.span.IsPartOf (withoutBlanks text.toList) := hwithin
      exact ⟨e, rfl, hpart.source_eq, hpart.isValid_end.le_utf8ByteSize, hpart.isValid_start,
        hpart.isValid_end⟩
  · intro bound written f hpart htext hpi hf
    exact readBound_error_of_spellPi_ne hpart htext hpi hf

/-- Two letters of two bytes are spelt out to a product of three factors; the bound is blamed, and
no place in the text it stands for. -/
theorem parse_error_spelt_out :
    ∃ e : ParseError, e = ⟨.range .product, "x=sin(t);y=cos(t);0<t<2ππ".toList, 22, 5⟩ ∧
      parse (α := Float) 1 "x = sin(t); y = cos(t); 0 < t < 2ππ" = .error (.invalid e) ∧
      (⟨e.span.start + e.span.length⟩ : String.Pos.Raw).IsValid
        (String.ofList (withoutBlanks "x = sin(t); y = cos(t); 0 < t < 2ππ".toList)) := by
  have hread : parse (α := Float) 1 "x = sin(t); y = cos(t); 0 < t < 2ππ" =
      .error (.invalid ⟨.range .product, "x=sin(t);y=cos(t);0<t<2ππ".toList, 22, 5⟩) := by
    rfl
  obtain ⟨e, he, -, -, -, hend⟩ := (parse_error_located (α := Float) 1 _).1 _ hread
  obtain rfl := Failure.invalid.inj he
  exact ⟨_, rfl, hread, hend⟩

end PlotSheet.Equation
