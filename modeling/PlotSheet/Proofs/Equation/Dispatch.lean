import PlotSheet.Proofs.Equation.Parametric
import PlotSheet.Proofs.Number.Natural

/-!
# The choice between the two grammars

An equation is read by one of two grammars, and two characters decide which one. The grammars have
no text in common: a polynomial equation is made of literals, `x`, `y`, `=` and carets, none of
which is a semicolon or a less-than sign, and a parametric equation holds both. So no grammar would
have read a text that the other one was chosen for.

## Main definitions

* `isTermCharacter`: the characters that terms are made of

## Main results

* `SpellsPolynomial.not_mem`, `SpellsParametric.mem`: the separators in the two grammars
* `parse_eq_ok_iff_readPolynomial_or_readParametric`: a text is read exactly if one of the two
  grammars reads it
-/

namespace PlotSheet.Equation

open PlotSheet.Span Text

/-! ## Polynomial equations -/

/-- The characters that terms are made of. -/
def isTermCharacter (c : Char) : Bool :=
  Literal.isCharacter c || ['x', '^'].contains c

theorem isTermCharacter_of_isCharacter {text : List Char}
    (h : ∀ c ∈ text, Literal.isCharacter c = true) : ∀ c ∈ text, isTermCharacter c = true := by
  intro c hc
  rw [isTermCharacter, h c hc, Bool.true_or]

theorem SpellsFactor.isCharacter_of_mem {text : List Char} {l : Literal} (h : SpellsFactor text l) :
    ∀ c ∈ text, Literal.isCharacter c = true := by
  cases h with
  | nothing => simp
  | plus => exact List.forall_mem_singleton.2 (by decide)
  | minus => exact List.forall_mem_singleton.2 (by decide)
  | literal h => exact Literal.isCharacter_of_mem h

/-- An exponent is made of digits and a plus sign, which are characters of literals. -/
theorem isCharacter_of_readNatural {limit n : Nat} {text : List Char}
    (h : Natural.read 10 limit text = .ok n) : ∀ c ∈ text, Literal.isCharacter c = true := by
  obtain ⟨digits, htext, hdigits⟩ := Natural.digits_of_read h
  have hall : ∀ c ∈ digits, Literal.isCharacter c = true := by
    intro c hc
    obtain ⟨d, hd⟩ := Option.isSome_iff_exists.1 (hdigits c hc)
    exact Literal.isCharacter_of_isDigit (Natural.isDigit_of_digit? hd)
  rcases htext with rfl | rfl
  · exact hall
  · exact List.forall_mem_cons.2 ⟨by decide, hall⟩

/-- Terms hold only their characters. -/
theorem SpellsTerm.isTermCharacter_of_mem {text : List Char} {t : Term} (h : SpellsTerm text t) :
    ∀ c ∈ text, isTermCharacter c = true := by
  have hx : isTermCharacter 'x' = true := by decide
  have hcaret : isTermCharacter '^' = true := by decide
  cases h with
  | constant _ hread => exact isTermCharacter_of_isCharacter (Literal.isCharacter_of_mem hread)
  | linear hfactor =>
    rw [List.forall_mem_append, List.forall_mem_singleton]
    exact ⟨isTermCharacter_of_isCharacter hfactor.isCharacter_of_mem, hx⟩
  | power hfactor hdigits =>
    rw [List.forall_mem_append, List.forall_mem_cons, List.forall_mem_cons]
    exact ⟨isTermCharacter_of_isCharacter hfactor.isCharacter_of_mem, hx, hcaret,
      isTermCharacter_of_isCharacter (isCharacter_of_readNatural hdigits)⟩

/-- The terms of an equation hold only characters of terms. -/
theorem isTermCharacter_of_forall₂ {texts : List (List Char)} {terms : List Term}
    (h : List.Forall₂ SpellsTerm texts terms) : ∀ c ∈ texts.flatten, isTermCharacter c = true := by
  induction h with
  | nil => simp
  | cons ht _ ih =>
    rw [List.flatten_cons, List.forall_mem_append]
    exact ⟨ht.isTermCharacter_of_mem, ih⟩

/-- Behind `y=` a polynomial equation holds only characters of terms. -/
theorem SpellsPolynomial.isTermCharacter_of_mem {source : List Char} {terms : List Term}
    (h : SpellsPolynomial source terms) :
    ∀ c ∈ source, c = 'y' ∨ c = '=' ∨ isTermCharacter c = true := by
  obtain ⟨body, texts, rfl, -, hsplit, hterms⟩ := h
  have hbody := isTermCharacter_of_forall₂ hterms
  rw [hsplit.flatten_eq] at hbody
  rw [List.forall_mem_cons, List.forall_mem_cons]
  exact ⟨.inl rfl, .inr (.inl rfl), fun c hc => .inr (.inr (hbody c hc))⟩

/-- A polynomial equation holds none of the separators. -/
theorem SpellsPolynomial.not_mem {source : List Char} {terms : List Term}
    (h : SpellsPolynomial source terms) : ';' ∉ source ∧ '<' ∉ source := by
  constructor
  · intro hmem
    exact absurd (h.isTermCharacter_of_mem ';' hmem) (by decide)
  · intro hmem
    exact absurd (h.isTermCharacter_of_mem '<' hmem) (by decide)

/-! ## Parametric equations -/

theorem mem_of_threeParts {c : Char} {text a b d : List Char} (h : ThreeParts c text a b d) :
    c ∈ text := by
  rw [h.text_eq]
  simp

variable {α : Type} [Scalar α] {most : Nat} {source : List Char}

/-- A parametric equation holds both separators. -/
theorem SpellsParametric.mem {p : Parametric α} (h : SpellsParametric source p) :
    ';' ∈ source ∧ '<' ∈ source := by
  cases h with
  | parts hparts _ _ hrange =>
    refine ⟨mem_of_threeParts hparts, ?_⟩
    cases hrange with
    | bounds hbounds =>
      rw [hparts.text_eq]
      have := mem_of_threeParts hbounds
      simp [this]

/-! ## The two grammars -/

theorem not_mem_of_readPolynomial {p : Polynomial α}
    (h : readPolynomial most (.whole source) = .ok p) :
    ';' ∉ source ∧ '<' ∉ source := by
  rcases readPolynomial_cases (α := α) most source with ⟨terms, hspells, -⟩ | ⟨e, he, -⟩
  · exact hspells.not_mem
  · rw [he] at h
    cases h

theorem mem_of_readParametric {p : Parametric α} (h : readParametric (.whole source) = .ok p) :
    ';' ∈ source ∧ '<' ∈ source :=
  (readParametric_eq_ok_iff.1 h).mem

/-- **The two grammars are disjoint, and the choice between them loses no equation.** A text is read
as a curve exactly if one of the two grammars reads it as that curve. No text with one of the two
separators is a polynomial equation and none without one of them is parametric, so that at most one
of the grammars reads it. -/
theorem parse_eq_ok_iff_readPolynomial_or_readParametric (most : Nat) (text : String) :
    (∀ c : Curve α, parse most text = .ok c ↔
      (∃ p, readPolynomial most (.whole (withoutBlanks text.toList)) = .ok p ∧ c = .polynomial p) ∨
      (∃ p, readParametric (.whole (withoutBlanks text.toList)) = .ok p ∧ c = .parametric p)) ∧
    (∀ p : Polynomial α, readPolynomial most (.whole (withoutBlanks text.toList)) = .ok p →
      ';' ∉ withoutBlanks text.toList ∧ '<' ∉ withoutBlanks text.toList) ∧
    (∀ p : Parametric α, readParametric (.whole (withoutBlanks text.toList)) = .ok p →
      ';' ∈ withoutBlanks text.toList ∧ '<' ∈ withoutBlanks text.toList) ∧
    ¬ ((∃ p : Polynomial α, readPolynomial most (.whole (withoutBlanks text.toList)) = .ok p) ∧
      ∃ p : Parametric α, readParametric (.whole (withoutBlanks text.toList)) = .ok p) := by
  refine ⟨?_, fun p => not_mem_of_readPolynomial, fun p => mem_of_readParametric, ?_⟩
  · intro c
    constructor
    · exact read_of_parse
    · rintro (⟨p, hread, rfl⟩ | ⟨p, hread, rfl⟩)
      · have hkind := (not_mem_of_readPolynomial hread).1
        rw [parse_of_not_parametric most fun h => hkind h.1, hread]
        rfl
      · rw [parse_of_parametric most (mem_of_readParametric hread), hread]
        rfl
  · rintro ⟨⟨p, hp⟩, q, hq⟩
    exact (not_mem_of_readPolynomial hp).1 (mem_of_readParametric hq).1

end PlotSheet.Equation
