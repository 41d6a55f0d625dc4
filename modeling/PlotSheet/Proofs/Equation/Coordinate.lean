import PlotSheet.Proofs.Equation.Call

/-!
# The grammar of coordinates

A coordinate is one call of a function: a factor before it, and behind it a factor before `t` and
the closing parenthesis. Every other text has one fault. A text without a call, or with several, is
blamed as a whole; around an only call the ending of the argument is looked at first, then the outer
and then the inner factor.

## Main definitions

* `SpellsInner`, `SpellsCoordinate`: the grammar of coordinates, with what they say
* `CoordinateFault`: what is wrong with a text that is no coordinate, and where

## Main results

* `spellsCoordinate_or_coordinateFault`: every text is a coordinate or has a fault
* `readCoordinate_of_spellsCoordinate`, `readCoordinate_of_coordinateFault`: reading gives the one
  or blames the other
-/

namespace PlotSheet.Equation

open Text PlotSheet.Span

/-- The text spells the factor before the parameter. Whatever starts with `t` counts as one. -/
inductive SpellsInner : List Char → Literal → Prop
  | parameter (rest : List Char) : SpellsInner ('t' :: rest) (unitLiteral false)
  | factor {text : List Char} {l : Literal} : SpellsFactor text l → SpellsInner text l

/-- The text spells a coordinate: a factor, the only call in the text, and the factor of its
argument. -/
inductive SpellsCoordinate {α : Type} [Scalar α] : List Char → Coordinate α → Prop
  | call {text outer inner : List Char} {f : TrigFunction} {l m : Literal} :
    IsOnlyCall text f outer (inner ++ ['t', ')']) → SpellsFactor outer l → SpellsInner inner m →
    SpellsCoordinate text ⟨f, Scalar.ofLiteral l, Scalar.ofLiteral m⟩

/-- The fault of a text that is no coordinate, with the part of `before ++ text ++ after` that
shows it. -/
inductive CoordinateFault (before after : List Char) : List Char → ParseError → Prop
  | unsupported {text : List Char} :
    (¬ ∃ f l r, IsOnlyCall text f l r) →
    CoordinateFault before after text ⟨.unsupportedFunction, between before text after⟩
  | argument {text outer argument : List Char} {f : TrigFunction} :
    IsOnlyCall text f outer argument → ¬ ['t', ')'] <:+ argument →
    CoordinateFault before after text
      ⟨.form .argument, between (before ++ outer ++ callPattern f) argument after⟩
  | outer {text outer inner : List Char} {f : TrigFunction} {e : LiteralError} :
    IsOnlyCall text f outer (inner ++ ['t', ')']) → outer ∉ [[], ['+'], ['-']] →
    Literal.read outer = .error e →
    CoordinateFault before after text
      ⟨.number e, between before outer (callPattern f ++ (inner ++ ['t', ')']) ++ after)⟩
  | inner {text outer inner : List Char} {f : TrigFunction} {l : Literal} {e : LiteralError} :
    IsOnlyCall text f outer (inner ++ ['t', ')']) → SpellsFactor outer l →
    ¬ ['t'] <+: inner → inner ∉ [[], ['+'], ['-']] → Literal.read inner = .error e →
    CoordinateFault before after text
      ⟨.number e, between (before ++ outer ++ callPattern f) inner (['t', ')'] ++ after)⟩

variable (before after : List Char)

/-! ## Inner factors -/

theorem SpellsFactor.not_prefix_t {text : List Char} {l : Literal} (h : SpellsFactor text l) :
    ¬ ['t'] <+: text := by
  rintro ⟨rest, rfl⟩
  cases h with
  | literal h =>
    rw [List.singleton_append, Literal.read_t] at h
    cases h

theorem readInner_of_spellsInner {text : List Char} {l : Literal} (h : SpellsInner text l) :
    readInner (between before text after) = .ok l := by
  rw [readInner, text_between, lift_ok, ok_bind]
  cases h with
  | parameter rest => rfl
  | factor h =>
    rw [if_neg (mt List.isPrefixOf_iff_prefix.1 h.not_prefix_t)]
    exact readFactor_of_spellsFactor .number before after h

theorem readInner_of_error {text : List Char} {e : LiteralError} (ht : ¬ ['t'] <+: text)
    (hunit : text ∉ [[], ['+'], ['-']]) (h : Literal.read text = .error e) :
    readInner (between before text after) =
      .error (.invalid ⟨.number e, between before text after⟩) := by
  rw [readInner, text_between, lift_ok, ok_bind, if_neg (mt List.isPrefixOf_iff_prefix.1 ht)]
  exact readFactor_of_error .number before after hunit h

theorem spellsInner_or_error (text : List Char) :
    (∃ l, SpellsInner text l) ∨
      ¬ ['t'] <+: text ∧ text ∉ [[], ['+'], ['-']] ∧ ∃ e, Literal.read text = .error e := by
  by_cases ht : ['t'] <+: text
  · obtain ⟨rest, rfl⟩ := ht
    exact .inl ⟨_, .parameter rest⟩
  · rcases spellsFactor_or_error text with ⟨l, hl⟩ | h
    · exact .inl ⟨l, .factor hl⟩
    · exact .inr ⟨ht, h⟩

/-! ## Coordinates -/

variable {α : Type} [Scalar α] {text : List Char}

/-- The argument of the only call decides first. -/
theorem readCoordinate_of_isOnlyCall {f : TrigFunction} {l r : List Char}
    (h : IsOnlyCall text f l r) :
    readCoordinate (α := α) (between before text after) = (do
      let some inner ← (between (before ++ l ++ callPattern f) r after).dropSuffix? ['t', ')']
        | blame (.form .argument) (between (before ++ l ++ callPattern f) r after)
      let outerFactor ← readFactor .number (between before l (callPattern f ++ r ++ after))
      let innerFactor ← readInner inner
      return ⟨f, Scalar.ofLiteral outerFactor, Scalar.ofLiteral innerFactor⟩) := by
  have hcall := onlyCall?_of_isOnlyCall h
  obtain rfl := h.text_eq
  exact readCoordinate_of_onlyCall? before after hcall

/-- Behind a well-formed argument the outer factor is read, then the inner one. -/
theorem readCoordinate_of_argument {f : TrigFunction} {outer inner : List Char}
    (h : IsOnlyCall text f outer (inner ++ ['t', ')'])) :
    readCoordinate (α := α) (between before text after) = (do
      let outerFactor ← readFactor .number
        (between before outer (callPattern f ++ (inner ++ ['t', ')']) ++ after))
      let innerFactor ← readInner
        (between (before ++ outer ++ callPattern f) inner (['t', ')'] ++ after))
      return ⟨f, Scalar.ofLiteral outerFactor, Scalar.ofLiteral innerFactor⟩) := by
  rw [readCoordinate_of_isOnlyCall before after h, dropSuffix?_between, lift_ok, ok_bind]

/-- A coordinate is read as what it says. -/
theorem readCoordinate_of_spellsCoordinate {c : Coordinate α} (h : SpellsCoordinate text c) :
    readCoordinate (between before text after) = .ok c := by
  cases h with
  | call hcall houter hinner =>
    rw [readCoordinate_of_argument before after hcall, readFactor_of_spellsFactor _ _ _ houter,
      ok_bind, readInner_of_spellsInner _ _ hinner, ok_bind]
    rfl

/-- Reading a text that is no coordinate fails with its fault. -/
theorem readCoordinate_of_coordinateFault {e : ParseError}
    (h : CoordinateFault before after text e) :
    readCoordinate (α := α) (between before text after) = .error (.invalid e) := by
  cases h with
  | unsupported h =>
    rw [readCoordinate, text_between, lift_ok, ok_bind, onlyCall?_eq_none_iff.2 h]
    rfl
  | argument hcall h =>
    rw [readCoordinate_of_isOnlyCall before after hcall, dropSuffix?_between_eq_none _ _ h, lift_ok,
      ok_bind]
    rfl
  | outer hcall hunit h =>
    rw [readCoordinate_of_argument before after hcall, readFactor_of_error _ _ _ hunit h]
    rfl
  | inner hcall houter ht hunit h =>
    rw [readCoordinate_of_argument before after hcall, readFactor_of_spellsFactor _ _ _ houter,
      ok_bind, readInner_of_error _ _ ht hunit h]
    rfl

/-- Every text is a coordinate, or has a fault wherever it stands. -/
theorem spellsCoordinate_or_coordinateFault (α : Type) [Scalar α] (text : List Char) :
    (∃ c : Coordinate α, SpellsCoordinate text c) ∨ ∃ e, CoordinateFault before after text e := by
  by_cases hcall : ∃ f l r, IsOnlyCall text f l r
  · obtain ⟨f, outer, argument, hcall⟩ := hcall
    by_cases hargument : ['t', ')'] <:+ argument
    · obtain ⟨inner, rfl⟩ := hargument
      rcases spellsFactor_or_error outer with ⟨l, hl⟩ | ⟨hunit, e, he⟩
      · rcases spellsInner_or_error inner with ⟨m, hm⟩ | ⟨ht, hunit, e, he⟩
        · exact .inl ⟨_, .call hcall hl hm⟩
        · exact .inr ⟨_, .inner hcall hl ht hunit he⟩
      · exact .inr ⟨_, .outer hcall hunit he⟩
    · exact .inr ⟨_, .argument hcall hargument⟩
  · exact .inr ⟨_, .unsupported hcall⟩

end PlotSheet.Equation
