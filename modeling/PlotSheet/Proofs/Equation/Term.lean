import PlotSheet.Equation.Polynomial
import PlotSheet.Proofs.Number.Literal
import PlotSheet.Proofs.Text.Cut

/-!
# The grammar of terms

A term is a literal without `x`, or a factor before `x` with nothing or a caret and an exponent
behind it; a factor is a literal, a bare sign or nothing. Every text is either such a term or has
one fault, which is blamed on the smallest part of the term that shows it.

## Main definitions

* `SpellsFactor`, `SpellsTerm`: the grammar of factors and terms, with what they say
* `TermFault`: what is wrong with a text that is no term, and where

## Main results

* `spellsTerm_or_termFault`: every text is a term or has a fault
* `readTerm_of_spellsTerm`, `readTerm_of_termFault`: reading gives the one or blames the other
-/

namespace PlotSheet.Equation

open PlotSheet.Span

@[simp] theorem lift_ok {β : Type} (b : β) :
    (liftM (Except.ok b : Except Fault β) : Except Failure β) = .ok b := rfl

/-- The text spells a factor: a literal, or a bare sign or nothing for plus or minus one. -/
inductive SpellsFactor : List Char → Literal → Prop
  | nothing : SpellsFactor [] (unitLiteral false)
  | plus : SpellsFactor ['+'] (unitLiteral false)
  | minus : SpellsFactor ['-'] (unitLiteral true)
  | literal {text : List Char} {l : Literal} : Literal.read text = .ok l → SpellsFactor text l

/-- The text spells a term: a constant, or a factor before `x` with an exponent below the
greatest machine word, which is one if it is left out. -/
inductive SpellsTerm : List Char → Term → Prop
  | constant {text : List Char} {l : Literal} :
    'x' ∉ text → Literal.read text = .ok l → SpellsTerm text ⟨0, l⟩
  | linear {factor : List Char} {l : Literal} :
    SpellsFactor factor l → SpellsTerm (factor ++ ['x']) ⟨1, l⟩
  | power {factor digits : List Char} {l : Literal} {n : Nat} :
    SpellsFactor factor l → Natural.read 10 wordSize digits = .ok n → n < wordSize - 1 →
    SpellsTerm (factor ++ 'x' :: '^' :: digits) ⟨n, l⟩

/-- The fault of a text that is no term, with the part of `before ++ text ++ after` that shows
it. -/
inductive TermFault (before after : List Char) : List Char → ParseError → Prop
  | constant {text : List Char} {e : LiteralError} :
    'x' ∉ text → Literal.read text = .error e →
    TermFault before after text ⟨.constant e, between before text after⟩
  | coefficient {factor power : List Char} {e : LiteralError} :
    'x' ∉ factor → factor ∉ [[], ['+'], ['-']] → Literal.read factor = .error e →
    TermFault before after (factor ++ 'x' :: power)
      ⟨.coefficient e, between before factor ('x' :: power ++ after)⟩
  | missingCaret {factor power : List Char} {l : Literal} :
    SpellsFactor factor l → power ≠ [] → ¬ ['^'] <+: power →
    TermFault before after (factor ++ 'x' :: power)
      ⟨.exponent .missingCaret, between (before ++ factor ++ ['x']) power after⟩
  | digits {factor digits : List Char} {l : Literal} {e : NaturalError} :
    SpellsFactor factor l → Natural.read 10 wordSize digits = .error e →
    TermFault before after (factor ++ 'x' :: '^' :: digits)
      ⟨.exponent (.digits e), between (before ++ factor ++ ['x'] ++ ['^']) digits after⟩
  | tooLarge {factor digits : List Char} {l : Literal} :
    SpellsFactor factor l → Natural.read 10 wordSize digits = .ok (wordSize - 1) →
    TermFault before after (factor ++ 'x' :: '^' :: digits)
      ⟨.exponent .tooLarge, between (before ++ factor ++ ['x']) ('^' :: digits) after⟩

/-! ## Factors -/

theorem SpellsFactor.not_mem {factor : List Char} {l : Literal} (h : SpellsFactor factor l) :
    'x' ∉ factor := by
  cases h with
  | nothing => simp
  | plus => decide
  | minus => decide
  | literal h =>
    intro hx
    have hchar := Literal.isCharacter_of_mem h 'x' hx
    exact absurd hchar (by decide)

variable (cause : LiteralError → Cause) (before after : List Char)

theorem readLiteral_of_ok {text : List Char} {l : Literal} (h : Literal.read text = .ok l) :
    readLiteral cause (between before text after) = .ok l := by
  rw [readLiteral, text_between, lift_ok, ok_bind, h]
  rfl

theorem readLiteral_of_error {text : List Char} {e : LiteralError}
    (h : Literal.read text = .error e) :
    readLiteral cause (between before text after) =
      .error (.invalid ⟨cause e, between before text after⟩) := by
  rw [readLiteral, text_between, lift_ok, ok_bind, h]
  rfl

theorem readFactor_of_spellsFactor {text : List Char} {l : Literal} (h : SpellsFactor text l) :
    readFactor cause (between before text after) = .ok l := by
  rw [readFactor, text_between, lift_ok, ok_bind]
  cases h with
  | nothing => rfl
  | plus => rfl
  | minus => rfl
  | literal h =>
    split
    · cases h
    · cases h
    · cases h
    · exact readLiteral_of_ok cause before after h

theorem readFactor_of_error {text : List Char} {e : LiteralError}
    (hunit : text ∉ [[], ['+'], ['-']]) (h : Literal.read text = .error e) :
    readFactor cause (between before text after) =
      .error (.invalid ⟨cause e, between before text after⟩) := by
  rw [readFactor, text_between, lift_ok, ok_bind]
  split
  · simp at hunit
  · simp at hunit
  · simp at hunit
  · exact readLiteral_of_error cause before after h

theorem spellsFactor_or_error (text : List Char) :
    (∃ l, SpellsFactor text l) ∨
      text ∉ [[], ['+'], ['-']] ∧ ∃ e, Literal.read text = .error e := by
  by_cases hunit : text ∈ [[], ['+'], ['-']]
  · simp only [List.mem_cons, List.not_mem_nil, or_false] at hunit
    rcases hunit with rfl | rfl | rfl
    · exact .inl ⟨_, .nothing⟩
    · exact .inl ⟨_, .plus⟩
    · exact .inl ⟨_, .minus⟩
  · cases h : Literal.read text with
    | ok l => exact .inl ⟨l, .literal h⟩
    | error e => exact .inr ⟨hunit, e, rfl⟩

/-! ## Exponents -/

theorem wordSize_eq : wordSize = 18446744073709551616 := rfl

theorem readExponent_nil : readExponent (between before [] after) = .ok 1 := by
  simp [readExponent, wordSize_eq]

theorem readExponent_of_not_prefix {power : List Char} (hne : power ≠ [])
    (h : ¬ ['^'] <+: power) :
    readExponent (between before power after) =
      .error (.invalid ⟨.exponent .missingCaret, between before power after⟩) := by
  simp [readExponent, hne, dropPrefix?_between_eq_none before after h, blame]

theorem readExponent_caret (digits : List Char) :
    readExponent (between before ('^' :: digits) after) =
      match Natural.read 10 wordSize digits with
      | .ok n =>
        if n = wordSize - 1 then
          .error (.invalid ⟨.exponent .tooLarge, between before ('^' :: digits) after⟩)
        else .ok n
      | .error e =>
        .error (.invalid ⟨.exponent (.digits e), between (before ++ ['^']) digits after⟩) := by
  have hdrop := dropPrefix?_between before after ['^'] digits
  rw [List.singleton_append] at hdrop
  rw [readExponent, isEmpty_between, List.isEmpty_cons, if_neg Bool.false_ne_true, hdrop, lift_ok,
    ok_bind]
  dsimp only
  rw [text_between, lift_ok, ok_bind]
  cases Natural.read 10 wordSize digits with
  | ok n => rfl
  | error e => rfl

/-! ## Terms -/

theorem readTerm_of_not_mem {text : List Char} (h : 'x' ∉ text) :
    readTerm (between before text after) =
      (readLiteral .constant (between before text after)).map (Term.mk 0) := by
  rw [readTerm, cut?_between_eq_none before after h, lift_ok, ok_bind]
  cases readLiteral .constant (between before text after) with
  | ok l => rfl
  | error f => rfl

theorem readTerm_of_spellsFactor {factor : List Char} {l : Literal} (h : SpellsFactor factor l)
    (power : List Char) :
    readTerm (between before (factor ++ 'x' :: power) after) =
      (readExponent (between (before ++ factor ++ ['x']) power after)).map (Term.mk · l) := by
  rw [readTerm, cut?_between before after h.not_mem, lift_ok, ok_bind]
  dsimp only
  rw [readFactor_of_spellsFactor .coefficient before _ h, ok_bind]
  cases readExponent (between (before ++ factor ++ ['x']) power after) with
  | ok n => rfl
  | error f => rfl

/-- A term is read as what it says. -/
theorem readTerm_of_spellsTerm {text : List Char} {t : Term} (h : SpellsTerm text t) :
    readTerm (between before text after) = .ok t := by
  cases h with
  | constant hx h =>
    rw [readTerm_of_not_mem before after hx, readLiteral_of_ok .constant before after h]
    rfl
  | linear h =>
    rw [readTerm_of_spellsFactor before after h, readExponent_nil]
    rfl
  | power h hdigits hlt =>
    rw [readTerm_of_spellsFactor before after h, readExponent_caret, hdigits]
    simp only [if_neg (Nat.ne_of_lt hlt)]
    rfl

/-- Reading a text that is no term fails with its fault. -/
theorem readTerm_of_termFault {text : List Char} {e : ParseError}
    (h : TermFault before after text e) :
    readTerm (between before text after) = .error (.invalid e) := by
  cases h with
  | constant hx h =>
    rw [readTerm_of_not_mem before after hx, readLiteral_of_error .constant before after h]
    rfl
  | coefficient hx hunit h =>
    rw [readTerm, cut?_between before after hx, lift_ok, ok_bind]
    dsimp only
    rw [readFactor_of_error .coefficient before _ hunit h]
    rfl
  | missingCaret h hne hcaret =>
    rw [readTerm_of_spellsFactor before after h, readExponent_of_not_prefix _ after hne hcaret]
    rfl
  | digits h hdigits =>
    rw [readTerm_of_spellsFactor before after h, readExponent_caret, hdigits]
    rfl
  | tooLarge h hdigits =>
    rw [readTerm_of_spellsFactor before after h, readExponent_caret, hdigits]
    simp only [if_true]
    rfl

/-- Every text is a term, or has a fault wherever it stands. -/
theorem spellsTerm_or_termFault (text : List Char) :
    (∃ t, SpellsTerm text t) ∨ ∃ e, TermFault before after text e := by
  by_cases hx : 'x' ∈ text
  · obtain ⟨factor, power, rfl, hfactor⟩ := List.eq_append_cons_of_mem hx
    rcases spellsFactor_or_error factor with ⟨l, hl⟩ | ⟨hunit, e, he⟩
    · by_cases hpower : power = []
      · subst hpower
        exact .inl ⟨_, .linear hl⟩
      · by_cases hcaret : ['^'] <+: power
        · obtain ⟨digits, rfl⟩ := hcaret
          cases hdigits : Natural.read 10 wordSize digits with
          | ok n =>
            have hlt : n < wordSize := Natural.read_lt (by decide) hdigits
            rcases Nat.lt_or_eq_of_le (Nat.le_sub_one_of_lt hlt) with hlt | rfl
            · exact .inl ⟨_, .power hl hdigits hlt⟩
            · exact .inr ⟨_, .tooLarge hl hdigits⟩
          | error e => exact .inr ⟨_, .digits hl hdigits⟩
        · exact .inr ⟨_, .missingCaret hl hpower hcaret⟩
    · exact .inr ⟨_, .coefficient hfactor hunit he⟩
  · cases h : Literal.read text with
    | ok l => exact .inl ⟨_, .constant hx h⟩
    | error e => exact .inr ⟨_, .constant hx h⟩

/-- A text with a fault is no term. -/
theorem TermFault.not_spellsTerm {before after text : List Char} {e : ParseError}
    (h : TermFault before after text e) : ¬ ∃ t, SpellsTerm text t := by
  rintro ⟨t, ht⟩
  have hread := readTerm_of_spellsTerm before after ht
  rw [readTerm_of_termFault before after h] at hread
  cases hread

/-- A text spells at most one term. -/
theorem SpellsTerm.unique {text : List Char} {t u : Term} (ht : SpellsTerm text t)
    (hu : SpellsTerm text u) : t = u := by
  have hread := readTerm_of_spellsTerm [] [] ht
  rw [readTerm_of_spellsTerm [] [] hu] at hread
  exact (Except.ok.inj hread).symm

theorem SpellsTerm.exponent_lt {text : List Char} {t : Term} (h : SpellsTerm text t) :
    t.exponent < wordSize - 1 := by
  cases h with
  | constant => exact show 0 < wordSize - 1 by decide
  | linear => exact show 1 < wordSize - 1 by decide
  | power _ _ hlt => exact hlt

end PlotSheet.Equation
