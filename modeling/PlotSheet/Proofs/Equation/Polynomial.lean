import Mathlib.Data.List.Forall2
import PlotSheet.Equation.Basic
import PlotSheet.Proofs.Equation.Coefficients

/-!
# The grammar of polynomial equations

An equation that is not parametric is read as a polynomial. It is one exactly if it is `y=` and a
text all of whose signed terms are terms, and if memory is set aside for its coefficients. The
first text that is no term decides the error, whatever stands behind it.

## Main definitions

* `SpellsPolynomial`: the text is a polynomial equation with the given terms
* `PolynomialFault`: the fault of a text that is read as no polynomial, and where it is

## Main results

* `readTerms_of_spellsTerm`, `readTerms_of_termFault`: reading the terms of a body
* `spellsPolynomial_or_polynomialFault`: every text is an equation or has a fault
* `readPolynomial_cases`: what reading a text as a polynomial can give
* `parse_polynomial_grammar`: the equations that are read, and the error of the leftmost term at
  fault
-/

namespace PlotSheet.Equation

open PlotSheet.Span Text

/-- The text is a polynomial equation with the given terms. -/
def SpellsPolynomial (source : List Char) (terms : List Term) : Prop :=
  ∃ body texts, source = 'y' :: '=' :: body ∧ body ≠ [] ∧ IsSignedSplit body texts ∧
    List.Forall₂ SpellsTerm texts terms

/-- The fault of a text that is read as no polynomial: it is no equation, or there is a first text
in it that is no term, or memory for its coefficients is not set aside. -/
inductive PolynomialFault (most : Nat) : List Char → ParseError → Prop
  | start {source : List Char} :
    ¬ ['y', '='] <+: source → PolynomialFault most source ⟨.form .start, whole source⟩
  | emptyBody : PolynomialFault most ['y', '='] ⟨.form .emptyBody, whole ['y', '=']⟩
  | term {body text : List Char} {ahead behind : List (List Char)} {terms : List Term}
    {e : ParseError} :
    IsSignedSplit body (ahead ++ text :: behind) → List.Forall₂ SpellsTerm ahead terms →
    TermFault ('y' :: '=' :: ahead.flatten) behind.flatten text e →
    PolynomialFault most ('y' :: '=' :: body) e
  | tooLarge {body : List Char} {terms : List Term} :
    SpellsPolynomial ('y' :: '=' :: body) terms →
    most < largestExponent terms + 1 →
    PolynomialFault most ('y' :: '=' :: body)
      ⟨.exponent .tooLarge, between ['y', '='] body []⟩

/-- The polynomial with the given terms, over the domain of all equations. -/
def polynomialOf {α : Type} [Scalar α] (terms : List Term) : Polynomial α :=
  ⟨denseCoefficients terms, defaultStart, defaultStep, defaultExtent, .never⟩

/-! ## The terms of a body -/

variable {α : Type} [Scalar α]

theorem readTerms_of_spellsTerm {texts : List (List Char)} {terms : List Term}
    (h : List.Forall₂ SpellsTerm texts terms) :
    ∀ (before after : List Char) (sums : List (Nat × Coefficient α)),
      readTerms sums (pieces [] before after texts) = .ok (addTerms sums terms) := by
  induction h with
  | nil => intros; rfl
  | cons ht _ ih =>
    intro before after sums
    rw [pieces_nil_cons, readTerms, readTerm_of_spellsTerm _ _ ht, ok_bind, ih]
    rfl

/-- The first text that is no term decides the error. -/
theorem readTerms_of_termFault {ahead : List (List Char)} {terms : List Term}
    (h : List.Forall₂ SpellsTerm ahead terms) {text : List Char} {behind : List (List Char)}
    {after : List Char} {e : ParseError} :
    ∀ (before : List Char) (sums : List (Nat × Coefficient α)),
      TermFault (before ++ ahead.flatten) (behind.flatten ++ after) text e →
      readTerms sums (pieces [] before after (ahead ++ text :: behind)) =
        .error (.invalid e) := by
  induction h with
  | nil =>
    intro before sums he
    rw [List.flatten_nil, List.append_nil] at he
    rw [List.nil_append, pieces_nil_cons, readTerms, readTerm_of_termFault _ _ he]
    rfl
  | cons ht _ ih =>
    intro before sums he
    rw [List.cons_append, pieces_nil_cons, readTerms, readTerm_of_spellsTerm _ _ ht, ok_bind]
    refine ih (before ++ _) _ ?_
    rwa [List.append_assoc, ← List.flatten_cons]

/-- Either all texts are terms, or there is a first one with a fault. -/
theorem forall_spellsTerm_or_termFault (before after : List Char) (texts : List (List Char)) :
    (∃ terms, List.Forall₂ SpellsTerm texts terms) ∨
      ∃ ahead terms text behind e, texts = ahead ++ text :: behind ∧
        List.Forall₂ SpellsTerm ahead terms ∧
        TermFault (before ++ ahead.flatten) (behind.flatten ++ after) text e := by
  -- induction on the texts: a fault of the first one is the leftmost, else look behind it
  induction texts generalizing before with
  | nil => exact .inl ⟨[], .nil⟩
  | cons text more ih =>
    rcases spellsTerm_or_termFault before (more.flatten ++ after) text with ⟨t, ht⟩ | ⟨e, he⟩
    · rcases ih (before ++ text) with ⟨terms, hterms⟩ | ⟨ahead, terms, u, behind, e, rfl, hs, he⟩
      · exact .inl ⟨t :: terms, .cons ht hterms⟩
      · refine .inr ⟨text :: ahead, t :: terms, u, behind, e, rfl, .cons ht hs, ?_⟩
        rwa [List.flatten_cons, ← List.append_assoc]
    · refine .inr ⟨[], [], text, more, e, rfl, .nil, ?_⟩
      simpa using he

theorem exponent_lt_of_forall_spellsTerm {texts : List (List Char)} {terms : List Term}
    (h : List.Forall₂ SpellsTerm texts terms) : ∀ t ∈ terms, t.exponent < wordSize - 1 := by
  induction h with
  | nil => simp
  | cons ht _ ih => exact List.forall_mem_cons.2 ⟨ht.exponent_lt, ih⟩

theorem exists_spellsTerm_of_forall {texts : List (List Char)}
    (h : ∀ text ∈ texts, ∃ t, SpellsTerm text t) : ∃ terms, List.Forall₂ SpellsTerm texts terms := by
  induction texts with
  | nil => exact ⟨[], .nil⟩
  | cons text more ih =>
    obtain ⟨t, ht⟩ := h text List.mem_cons_self
    obtain ⟨terms, hterms⟩ := ih fun u hu => h u (List.mem_cons_of_mem _ hu)
    exact ⟨t :: terms, .cons ht hterms⟩

/-! ## Equations -/

/-- The coefficients of the terms of an equation are counted by a machine word. -/
theorem SpellsPolynomial.largestExponent_lt {source : List Char} {terms : List Term}
    (h : SpellsPolynomial source terms) : largestExponent terms + 1 < wordSize := by
  obtain ⟨body, texts, -, -, -, hterms⟩ := h
  have hlt := exponent_lt_of_forall_spellsTerm hterms
  have hle : largestExponent terms ≤ wordSize - 2 := by
    refine foldr_max_le_iff.2 fun n hn => ?_
    obtain ⟨t, ht, rfl⟩ := List.mem_map.1 hn
    have := hlt t ht
    omega
  have hsize : 2 < wordSize := by decide
  omega

theorem body_inj {a b : List Char} (h : 'y' :: '=' :: a = 'y' :: '=' :: b) : a = b :=
  (List.cons.inj (List.cons.inj h).2).2

/-- A text is an equation of at most one list of terms. -/
theorem SpellsPolynomial.unique {source : List Char} {terms terms' : List Term}
    (h : SpellsPolynomial source terms) (h' : SpellsPolynomial source terms') :
    terms = terms' := by
  obtain ⟨body, texts, rfl, -, hsplit, hterms⟩ := h
  obtain ⟨body', texts', hbody, -, hsplit', hterms'⟩ := h'
  obtain rfl := body_inj hbody
  rw [isSignedSplit_iff] at hsplit hsplit'
  rw [hsplit] at hterms
  rw [hsplit'] at hterms'
  have hunique : Relator.RightUnique SpellsTerm := fun _ _ _ => SpellsTerm.unique
  exact hunique.forall₂ hterms hterms'

theorem body?_whole (body : List Char) :
    body? (.whole ('y' :: '=' :: body)) = .ok (some (between ['y', '='] body [])) := by
  have hy := dropPrefix?_between [] [] ['y'] ('=' :: body)
  have heq := dropPrefix?_between ['y'] [] ['='] body
  rw [List.singleton_append, List.nil_append] at hy
  rw [List.singleton_append, List.singleton_append] at heq
  rw [body?, whole_eq_between, hy, ok_bind]
  exact heq

theorem body?_of_not_prefix {source : List Char} (h : ¬ ['y', '='] <+: source) :
    body? (.whole source) = .ok none := by
  rw [body?, whole_eq_between]
  by_cases hy : ['y'] <+: source
  · obtain ⟨rest, rfl⟩ := hy
    have hrest : ¬ ['='] <+: rest := by
      rintro ⟨body, rfl⟩
      exact h ⟨body, rfl⟩
    rw [dropPrefix?_between, ok_bind]
    exact dropPrefix?_between_eq_none _ _ hrest
  · rw [dropPrefix?_between_eq_none _ _ hy]
    rfl

/-- The body of an equation is a part of it. -/
theorem exists_body?_eq_ok {source : List Char} {s : Span} (h : s.IsPartOf source) :
    ∃ found, body? s = .ok found ∧ ∀ body ∈ found, body.IsPartOf source := by
  obtain ⟨rest, hrest, hpart⟩ := h.dropPrefix? ['y']
  rw [body?, hrest, ok_bind]
  cases rest with
  | none => exact ⟨none, rfl, by simp⟩
  | some rest => exact (hpart rest rfl).dropPrefix? ['=']

theorem readPolynomial_of_body (most : Nat) {body : List Char} (h : body ≠ []) :
    readPolynomial (α := α) most (.whole ('y' :: '=' :: body)) = (do
      let sums ← readTerms [] (pieces [] ['y', '='] [] (signedTerms body))
      return ⟨← dense most (between ['y', '='] body []) sums, defaultStart, defaultStep,
        defaultExtent, .never⟩) := by
  rw [readPolynomial, body?_whole, lift_ok, ok_bind]
  dsimp only
  rw [isEmpty_between, List.isEmpty_eq_false_iff.2 h, if_neg Bool.false_ne_true, terms_between,
    lift_ok, ok_bind]

theorem readPolynomial_of_not_prefix (most : Nat) {source : List Char}
    (h : ¬ ['y', '='] <+: source) :
    readPolynomial (α := α) most (.whole source) =
      .error (.invalid ⟨.form .start, .whole source⟩) := by
  rw [readPolynomial, body?_of_not_prefix h]
  rfl

/-- A polynomial equation is read as the polynomial of its terms, if memory for the coefficients is
set aside. -/
theorem readPolynomial_of_spellsPolynomial {most : Nat} {source : List Char} {terms : List Term}
    (h : SpellsPolynomial source terms) (hlength : largestExponent terms + 1 ≤ most) :
    readPolynomial (α := α) most (.whole source) = .ok (polynomialOf terms) := by
  obtain ⟨body, texts, rfl, hbody, hsplit, hterms⟩ := h
  obtain rfl := isSignedSplit_iff.1 hsplit
  rw [readPolynomial_of_body most hbody, readTerms_of_spellsTerm hterms, ok_bind,
    dense_addTerms most _ (exponent_lt_of_forall_spellsTerm hterms), if_neg (by omega), ok_bind]
  rfl

/-- Coefficients for which no memory is set aside are blamed on the whole body. -/
theorem readPolynomial_of_tooLarge {most : Nat} {body : List Char} {texts : List (List Char)}
    {terms : List Term} (hbody : body ≠ []) (hsplit : IsSignedSplit body texts)
    (hterms : List.Forall₂ SpellsTerm texts terms)
    (hlength : most < largestExponent terms + 1) :
    readPolynomial (α := α) most (.whole ('y' :: '=' :: body)) =
      .error (.invalid ⟨.exponent .tooLarge, between ['y', '='] body []⟩) := by
  obtain rfl := isSignedSplit_iff.1 hsplit
  rw [readPolynomial_of_body most hbody, readTerms_of_spellsTerm hterms, ok_bind,
    dense_addTerms most _ (exponent_lt_of_forall_spellsTerm hterms), if_pos hlength]
  rfl

/-- The leftmost text that is no term decides the error. -/
theorem readPolynomial_of_termFault (most : Nat) {body text : List Char}
    {ahead behind : List (List Char)}
    {terms : List Term} {e : ParseError} (hsplit : IsSignedSplit body (ahead ++ text :: behind))
    (hterms : List.Forall₂ SpellsTerm ahead terms)
    (he : TermFault ('y' :: '=' :: ahead.flatten) behind.flatten text e) :
    readPolynomial (α := α) most (.whole ('y' :: '=' :: body)) = .error (.invalid e) := by
  have hbody : body ≠ [] := by
    have htext := hsplit.ne_nil text (by simp)
    rw [← hsplit.flatten_eq]
    simp [htext]
  rw [readPolynomial_of_body most hbody, ← isSignedSplit_iff.1 hsplit,
    readTerms_of_termFault hterms ['y', '='] [] (by simpa using he)]
  rfl

/-- Reading a text that is no equation, or an equation with too large an exponent, fails with its
fault. -/
theorem readPolynomial_of_polynomialFault {most : Nat} {source : List Char} {e : ParseError}
    (h : PolynomialFault most source e) :
    readPolynomial (α := α) most (.whole source) = .error (.invalid e) := by
  cases h with
  | start h => exact readPolynomial_of_not_prefix most h
  | emptyBody => rfl
  | term hsplit hterms he => exact readPolynomial_of_termFault most hsplit hterms he
  | tooLarge h hlength =>
    obtain ⟨body, texts, heq, hbody, hsplit, hterms⟩ := h
    obtain rfl := body_inj heq
    exact readPolynomial_of_tooLarge hbody hsplit hterms hlength

/-- Every text is an equation for whose coefficients memory is set aside, or has a fault. -/
theorem spellsPolynomial_or_polynomialFault (most : Nat) (source : List Char) :
    (∃ terms, SpellsPolynomial source terms ∧ largestExponent terms + 1 ≤ most) ∨
      ∃ e, PolynomialFault most source e := by
  by_cases hstart : ['y', '='] <+: source
  · obtain ⟨body, rfl⟩ := hstart
    by_cases hbody : body = []
    · subst hbody
      exact .inr ⟨_, .emptyBody⟩
    · have hsplit := isSignedSplit_signedTerms body
      rcases forall_spellsTerm_or_termFault ['y', '='] [] (signedTerms body) with
        ⟨terms, hterms⟩ | ⟨ahead, terms, text, behind, e, htexts, hterms, he⟩
      · have hspells : SpellsPolynomial (['y', '='] ++ body) terms :=
          ⟨body, _, rfl, hbody, hsplit, hterms⟩
        by_cases hlength : largestExponent terms + 1 ≤ most
        · exact .inl ⟨terms, hspells, hlength⟩
        · exact .inr ⟨_, .tooLarge hspells (Nat.lt_of_not_le hlength)⟩
      · rw [List.append_nil] at he
        rw [htexts] at hsplit
        exact .inr ⟨e, .term hsplit hterms he⟩
  · exact .inr ⟨_, .start hstart⟩

theorem TermFault.isPartOf {before after text : List Char} {e : ParseError}
    (h : TermFault before after text e) : e.span.IsPartOf (before ++ text ++ after) := by
  cases h with
  | constant => exact ⟨_, _, _, rfl, rfl⟩
  | coefficient => exact ⟨_, _, _, rfl, by simp⟩
  | missingCaret => exact ⟨_, _, _, rfl, by simp⟩
  | digits => exact ⟨_, _, _, rfl, by simp⟩
  | tooLarge => exact ⟨_, _, _, rfl, by simp⟩

theorem PolynomialFault.isPartOf {most : Nat} {source : List Char} {e : ParseError}
    (h : PolynomialFault most source e) : e.span.IsPartOf source := by
  cases h with
  | start => exact isPartOf_whole source
  | emptyBody => exact isPartOf_whole _
  | term hsplit _ he =>
    have hpart := he.isPartOf
    rw [← hsplit.flatten_eq]
    simpa using hpart
  | tooLarge => exact ⟨_, _, _, rfl, by simp⟩

/-- Reading a text as a polynomial gives the polynomial of its terms, or blames a part of it. -/
theorem readPolynomial_cases (most : Nat) (source : List Char) :
    (∃ terms, SpellsPolynomial source terms ∧ largestExponent terms + 1 ≤ most ∧
      readPolynomial (α := α) most (.whole source) = .ok (polynomialOf terms)) ∨
    (∃ e, readPolynomial (α := α) most (.whole source) = .error (.invalid e) ∧
      e.span.IsPartOf source) := by
  rcases spellsPolynomial_or_polynomialFault most source with ⟨terms, hspells, hlength⟩ | ⟨e, he⟩
  · exact .inl ⟨terms, hspells, hlength, readPolynomial_of_spellsPolynomial hspells hlength⟩
  · exact .inr ⟨e, readPolynomial_of_polynomialFault he, he.isPartOf⟩

/-! ## The dispatch -/

theorem isParametric_whole (source : List Char) :
    isParametric (.whole source) = .ok (source.contains ';' && source.contains '<') := by
  simp [isParametric, Span.contains]

/-- A text without both a semicolon and a less-than sign is read as a polynomial. -/
theorem parse_of_not_parametric (most : Nat) {text : String}
    (h : ¬ (';' ∈ withoutBlanks text.toList ∧ '<' ∈ withoutBlanks text.toList)) :
    parse (α := α) most text =
      (readPolynomial most (.whole (withoutBlanks text.toList))).map Curve.polynomial := by
  have hkind : ((withoutBlanks text.toList).contains ';' &&
      (withoutBlanks text.toList).contains '<') = false := by
    rw [← Bool.not_eq_true, Bool.and_eq_true, List.contains_iff_mem, List.contains_iff_mem]
    exact h
  rw [parse, readCurve, isParametric_whole, hkind, lift_ok, ok_bind, if_neg Bool.false_ne_true]
  cases readPolynomial (α := α) most (.whole (withoutBlanks text.toList)) with
  | ok p => rfl
  | error f => rfl

/-- A text with a semicolon and a less-than sign is read as a parametric equation. -/
theorem parse_of_parametric (most : Nat) {text : String}
    (h : ';' ∈ withoutBlanks text.toList ∧ '<' ∈ withoutBlanks text.toList) :
    parse (α := α) most text =
      (readParametric (.whole (withoutBlanks text.toList))).map Curve.parametric := by
  have hkind : ((withoutBlanks text.toList).contains ';' &&
      (withoutBlanks text.toList).contains '<') = true := by
    rw [Bool.and_eq_true, List.contains_iff_mem, List.contains_iff_mem]
    exact h
  rw [parse, readCurve, isParametric_whole, hkind, lift_ok, ok_bind, if_pos rfl]
  cases readParametric (α := α) (.whole (withoutBlanks text.toList)) with
  | ok p => rfl
  | error f => rfl

/-- **The grammar of polynomial equations.** A text that is not parametric is read exactly if it is
`y=` and signed terms, and memory is set aside for the coefficients; it is read as the polynomial
of those terms. If some signed term is none, the leftmost such one decides the error. -/
theorem parse_polynomial_grammar (most : Nat) (text : String)
    (h : ¬ (';' ∈ withoutBlanks text.toList ∧ '<' ∈ withoutBlanks text.toList)) :
    (∀ c : Curve α, parse most text = .ok c ↔
      ∃ terms, SpellsPolynomial (withoutBlanks text.toList) terms ∧
        largestExponent terms + 1 ≤ most ∧ c = .polynomial (polynomialOf terms)) ∧
    (∀ body ahead bad behind, withoutBlanks text.toList = 'y' :: '=' :: body →
      IsSignedSplit body (ahead ++ bad :: behind) → (∀ t ∈ ahead, ∃ term, SpellsTerm t term) →
      (¬ ∃ term, SpellsTerm bad term) →
      ∃ e, TermFault ('y' :: '=' :: ahead.flatten) behind.flatten bad e ∧
        parse (α := α) most text = .error (.invalid e)) := by
  rw [parse_of_not_parametric most h]
  constructor
  · intro c
    constructor
    · intro hc
      rcases readPolynomial_cases (α := α) most (withoutBlanks text.toList) with
        ⟨terms, hspells, hlength, hread⟩ | ⟨e, hread, -⟩
      · rw [hread] at hc
        exact ⟨terms, hspells, hlength, (Except.ok.inj hc).symm⟩
      · rw [hread] at hc
        cases hc
    · rintro ⟨terms, hspells, hlength, rfl⟩
      rw [readPolynomial_of_spellsPolynomial hspells hlength]
      rfl
  · intro body ahead bad behind hsource hsplit hahead hbad
    obtain ⟨terms, hterms⟩ := exists_spellsTerm_of_forall hahead
    obtain ⟨e, he⟩ := (spellsTerm_or_termFault ('y' :: '=' :: ahead.flatten) behind.flatten
      bad).resolve_left hbad
    refine ⟨e, he, ?_⟩
    rw [hsource, readPolynomial_of_termFault most hsplit hterms he]
    rfl

/-- Terms of one exponent are added up, and a second bad term does not matter. -/
theorem parse_repeated_exponents :
    (¬ (';' ∈ withoutBlanks "y = 2x + 1 - x^3 + x".toList ∧
        '<' ∈ withoutBlanks "y = 2x + 1 - x^3 + x".toList) ∧
      parse (α := Float) 4 "y = 2x + 1 - x^3 + x" = .ok (.polynomial
        ⟨[⟨1, false⟩, ⟨3, false⟩, ⟨0, false⟩, ⟨-1, false⟩], -10, 0.1, 20, .never⟩)) ∧
    (¬ (';' ∈ withoutBlanks "y = x + 2*x + zz".toList ∧
        '<' ∈ withoutBlanks "y = x + 2*x + zz".toList) ∧
      ∃ e, TermFault "y=x".toList "+zz".toList "+2*x".toList e ∧
        parse (α := Float) 4 "y = x + 2*x + zz" = .error (.invalid e)) := by
  refine ⟨⟨by decide, ?_⟩, by decide, ?_⟩
  · refine ((parse_polynomial_grammar 4 "y = 2x + 1 - x^3 + x" (by decide)).1 _).2
      ⟨[⟨1, ⟨false, .decimal 2 0⟩⟩, ⟨0, ⟨false, .decimal 1 0⟩⟩, ⟨3, unitLiteral true⟩,
        ⟨1, unitLiteral false⟩], ⟨"2x+1-x^3+x".toList, _, by decide, by decide,
          isSignedSplit_signedTerms _, ?_⟩, by decide, ?_⟩
    · have htwo : SpellsFactor ['2'] ⟨false, .decimal 2 0⟩ := .literal rfl
      have hcube : SpellsTerm "-x^3".toList ⟨3, unitLiteral true⟩ :=
        .power .minus (rfl : Natural.read 10 wordSize ['3'] = .ok 3) (by decide)
      exact .cons (.linear htwo) <| .cons (.constant (by decide) rfl) <| .cons hcube <|
        .cons (.linear .plus) .nil
    · exact congrArg Curve.polynomial (by decide +kernel)
  · have hfault : TermFault "y=x".toList "+zz".toList "+2*x".toList _ :=
      @TermFault.coefficient _ _ "+2*".toList [] _ (by decide) (by decide) rfl
    exact (parse_polynomial_grammar 4 "y = x + 2*x + zz" (by decide)).2 "x+2*x+zz".toList [['x']]
      "+2*x".toList ["+zz".toList] (by decide) (isSignedSplit_iff.2 (by decide))
      (List.forall_mem_singleton.2 ⟨_, .linear .nothing⟩) hfault.not_spellsTerm

end PlotSheet.Equation
