import PlotSheet.Proofs.Curve.Normal
import PlotSheet.Proofs.Equation.Polynomial
import PlotSheet.Proofs.Equation.TermDisplay

/-!
# The text of a polynomial

The text of a polynomial, without its blanks, is a polynomial equation: it is cut into signed terms
right where the terms were put together, since no term holds a sign but the one ahead of it. Each
term says the coefficient and the exponent that it was written for, and no two have one exponent;
so the equation is read as the normal form of the polynomial.

## Main definitions

* `Polynomial.numbers`: the numbers in the text of a polynomial
* `termTexts`: the texts of terms without blanks

## Main results

* `isSignedSplit_termTexts`: the text of all terms is cut into the texts of the terms
* `denseCoefficients_of_entries`: the shown terms add up to the normal form
* `readPolynomial_display`: the whole text
* `minus_eq_false_of_mem_denseCoefficients`: what reading says of the signs of coefficients
-/

namespace PlotSheet

/-- The numbers in the text of a polynomial. -/
def Polynomial.numbers {α : Type} (p : Polynomial α) : List α :=
  p.coefficients.map Coefficient.value

namespace Equation

open PlotSheet.Span Text PlotSheet.Polynomial

/-! ## The text of all terms -/

/-- The texts of terms without blanks; that of a zero if there is no term. -/
def termTexts : (leading : Bool) → List (Nat × Coefficient Float) → List (List Char)
  | leading, [] => if leading then [['0']] else []
  | leading, t :: rest => termText leading t :: termTexts false rest

theorem exists_termText_eq_cons (leading : Bool) {t : Nat × Coefficient Float}
    (h : t.2.value.isNaN = false) :
    ∃ c rest, termText leading t = c :: rest ∧ ∀ d ∈ rest, isSign d = false := by
  have hsigns := not_isSign_of_mem_displayTerm t.1 h
  have hmem := termSign_mem leading t.2.isMinus
  rw [termText]
  generalize termSign leading t.2.isMinus = sign at hmem
  simp only [List.mem_cons, List.not_mem_nil, or_false] at hmem
  rcases hmem with rfl | rfl | rfl
  · obtain ⟨c, rest, hterm⟩ := List.exists_cons_of_ne_nil (displayTerm_ne_nil t.1 h)
    rw [hterm] at hsigns ⊢
    exact ⟨c, rest, rfl, fun d hd => hsigns d (List.mem_cons_of_mem c hd)⟩
  · exact ⟨'+', _, rfl, hsigns⟩
  · exact ⟨'-', _, rfl, hsigns⟩

/-- Every term but the leading one starts with a sign. -/
theorem exists_termText_false (t : Nat × Coefficient Float) :
    ∃ c rest, termText false t = c :: rest ∧ isSign c = true := by
  obtain ⟨c, hc, hsign⟩ := exists_termSign_false t.2.isMinus
  exact ⟨c, displayTerm t.1 t.2.value.abs, by rw [termText, hc]; rfl, hsign⟩

section Terms

variable {shown : List (Nat × Coefficient Float)}

/-- The text of all terms is cut right where it was put together. -/
theorem isSignedSplit_termTexts (h : ∀ t ∈ shown, t.2.value.isNaN = false) :
    ∀ leading, IsSignedSplit (termTexts leading shown).flatten (termTexts leading shown) := by
  induction shown with
  | nil =>
    intro leading
    cases leading with
    | true => exact IsSignedSplit.cons '0' [] (by simp) .nil (.inl rfl)
    | false => exact .nil
  | cons t rest ih =>
    intro leading
    obtain ⟨ht, hrest⟩ := List.forall_mem_cons.1 h
    obtain ⟨c, behind, htext, hsigns⟩ := exists_termText_eq_cons leading ht
    rw [termTexts, List.flatten_cons, htext]
    apply IsSignedSplit.cons c behind hsigns (ih hrest false)
    cases rest with
    | nil => exact .inl rfl
    | cons u more =>
      obtain ⟨d, tail, hu, hd⟩ := exists_termText_false u
      exact .inr ⟨d, tail ++ (termTexts false more).flatten, by rw [termTexts, hu]; rfl, hd⟩

theorem withoutBlanks_displayTerms
    (h : ∀ t ∈ shown, t.2.value.isNaN = false ∧ t.2.isZero = false) :
    ∀ leading, withoutBlanks (displayTerms leading shown) = (termTexts leading shown).flatten := by
  induction shown with
  | nil =>
    intro leading
    cases leading <;> decide
  | cons t rest ih =>
    intro leading
    obtain ⟨⟨hdefined, hzero⟩, hrest⟩ := List.forall_mem_cons.1 h
    have hvalue : (t.2.value == 0) = false := hzero
    rw [displayTerms, hvalue, if_neg Bool.false_ne_true, withoutBlanks_append,
      withoutBlanks_append, withoutBlanks_displayTerm t.1 hdefined, ih hrest false]
    rfl

theorem not_mem_termText (leading : Bool) {t : Nat × Coefficient Float}
    (h : t.2.value.isNaN = false) : ';' ∉ termText leading t := by
  have hsign : ∀ sign ∈ [[], ['+'], ['-']], ';' ∉ sign := by decide
  have hterm : ';' ∉ "0123456789.infx^".toList := by decide
  rw [termText, List.mem_append]
  rintro (hmem | hmem)
  · exact hsign _ (termSign_mem leading t.2.isMinus) hmem
  · exact hterm (mem_displayTerm t.1 h _ hmem)

theorem not_mem_termTexts (h : ∀ t ∈ shown, t.2.value.isNaN = false) :
    ∀ leading, ';' ∉ (termTexts leading shown).flatten := by
  induction shown with
  | nil =>
    intro leading
    cases leading <;> decide
  | cons t rest ih =>
    intro leading
    obtain ⟨ht, hrest⟩ := List.forall_mem_cons.1 h
    rw [termTexts, List.flatten_cons, List.mem_append]
    rintro (hmem | hmem)
    · exact not_mem_termText leading ht hmem
    · exact ih hrest false hmem

/-- The texts of terms are terms that say the same. -/
theorem exists_terms (h : ∀ t ∈ shown, t.2.value.isNaN = false ∧ t.2.minus = false ∧
      t.1 < wordSize - 1) :
    ∀ leading, leading = false ∨ shown ≠ [] →
      ∃ terms, List.Forall₂ SpellsTerm (termTexts leading shown) terms ∧
        terms.map Term.entry = shown := by
  induction shown with
  | nil =>
    rintro leading (rfl | hne)
    · exact ⟨[], .nil, rfl⟩
    · exact absurd rfl hne
  | cons t rest ih =>
    intro leading _
    obtain ⟨⟨hdefined, hminus, hexponent⟩, hrest⟩ := List.forall_mem_cons.1 h
    obtain ⟨term, hterm, hentry⟩ := spellsTerm_termText leading hdefined hminus hexponent
    obtain ⟨terms, hterms, hentries⟩ := ih hrest false (.inl rfl)
    exact ⟨term :: terms, .cons hterm hterms, by rw [List.map_cons, hentry, hentries]⟩

end Terms

/-! ## The sums of the terms -/

theorem coefficientAt_eq_total (terms : List Term) (k : Nat) :
    coefficientAt (α := Float) terms k =
      total (((terms.map Term.entry).filter fun t => t.1 = k).map Prod.snd) := by
  rw [coefficientAt, factorsAt, List.filter_map, List.map_map]
  rfl

theorem largestExponent_eq (terms : List Term) :
    largestExponent terms = ((terms.map (Term.entry (α := Float))).map Prod.fst).foldr max 0 := by
  rw [largestExponent, List.map_map]
  rfl

theorem total_filter_isZero (c : Coefficient Float) :
    total ([c].filter fun c => !c.isZero) = c.normal := by
  rw [Coefficient.normal, List.filter_singleton]
  cases c.isZero <;> rfl

/-- The terms that a polynomial shows add up to its normal form, whatever zeros it does not
show. -/
theorem denseCoefficients_of_entries {terms : List Term} {cs : List (Coefficient Float)}
    (h : terms.map Term.entry = shownTerms cs) (hne : shownTerms cs ≠ []) :
    denseCoefficients terms = normalCoefficients cs := by
  induction cs using List.reverseRecOn with
  | nil => exact absurd rfl hne
  | append_singleton cs c ih =>
    cases hc : c.isZero with
    | true =>
      rw [shownTerms_concat, hc, if_pos rfl] at h hne
      rw [normalCoefficients_concat_of_isZero cs hc, ih h hne]
    | false =>
      have hlargest : largestExponent terms = cs.length := by
        rw [largestExponent_eq, h, shownTerms_concat, hc, if_neg Bool.false_ne_true, List.map_cons,
          List.foldr_cons]
        apply Nat.max_eq_left
        rw [foldr_max_le_iff]
        intro k hk
        obtain ⟨t, ht, rfl⟩ := List.mem_map.1 hk
        exact (forall_mem_shownTerms cs t ht).1.le
      rw [normalCoefficients_concat cs hc, denseCoefficients, hlargest]
      apply List.ext_getElem (by simp)
      intro k hk _
      have hlt : k < (cs ++ [c]).length := by simpa using hk
      rw [List.getElem_map, List.getElem_range, List.getElem_map, coefficientAt_eq_total, h,
        filter_shownTerms, List.getElem?_eq_getElem hlt, Option.toList_some, total_filter_isZero]

/-! ## Equations -/

section Equations

variable {p : Polynomial Float}

theorem isNaN_of_mem_shownTerms (h : ∀ x ∈ p.numbers, x.isNaN = false) :
    ∀ t ∈ shownTerms p.coefficients, t.2.value.isNaN = false := fun t ht =>
  h _ (List.mem_map_of_mem (forall_mem_shownTerms _ t ht).2.1)

theorem withoutBlanks_display (h : ∀ x ∈ p.numbers, x.isNaN = false) :
    withoutBlanks p.display =
      'y' :: '=' :: (termTexts true (shownTerms p.coefficients)).flatten := by
  have hstart : withoutBlanks "y =".toList = ['y', '='] := by decide
  have hshown := fun t ht => And.intro (isNaN_of_mem_shownTerms h t ht)
    (forall_mem_shownTerms p.coefficients t ht).2.2
  rw [display_eq_shownTerms, withoutBlanks_append, hstart, withoutBlanks_displayTerms hshown]
  rfl

/-- The text of a polynomial is not taken for a parametric equation. -/
theorem not_mem_display (h : ∀ x ∈ p.numbers, x.isNaN = false) :
    ';' ∉ withoutBlanks p.display := by
  have hterms := not_mem_termTexts (isNaN_of_mem_shownTerms h) true
  rw [withoutBlanks_display h, List.mem_cons, List.mem_cons]
  rintro (heq | heq | hmem)
  · exact absurd heq (by decide)
  · exact absurd heq (by decide)
  · exact hterms hmem

/-- The text of a polynomial is an equation whose terms add up to the normal form. -/
theorem spellsPolynomial_display (h : ∀ x ∈ p.numbers, x.isNaN = false)
    (hminus : ∀ c ∈ p.coefficients, c.minus = false)
    (hlength : p.coefficients.length < wordSize) :
    ∃ terms, SpellsPolynomial (withoutBlanks p.display) terms ∧
      denseCoefficients terms = normalCoefficients p.coefficients := by
  have hsplit := isSignedSplit_termTexts (isNaN_of_mem_shownTerms h) true
  have hbody : (termTexts true (shownTerms p.coefficients)).flatten ≠ [] := by
    intro hnil
    rw [hnil] at hsplit
    rw [isSignedSplit_iff] at hsplit
    cases hshown : shownTerms p.coefficients with
    | nil => rw [hshown] at hsplit; cases hsplit
    | cons t rest => rw [hshown] at hsplit; cases hsplit
  by_cases hshown : shownTerms p.coefficients = []
  · refine ⟨[⟨0, ⟨false, .decimal 0 0⟩⟩], ⟨_, _, withoutBlanks_display h, hbody, hsplit, ?_⟩, ?_⟩
    · rw [hshown]
      exact .cons (.constant (by decide) rfl) .nil
    · rw [normalCoefficients_of_shownTerms_eq_nil _ hshown]
      rfl
  · have hterms : ∀ t ∈ shownTerms p.coefficients, t.2.value.isNaN = false ∧ t.2.minus = false ∧
        t.1 < wordSize - 1 := by
      intro t ht
      obtain ⟨hexponent, hmem, -⟩ := forall_mem_shownTerms _ t ht
      exact ⟨isNaN_of_mem_shownTerms h t ht, hminus _ hmem, by omega⟩
    obtain ⟨terms, hspells, hentries⟩ := exists_terms hterms true (.inr hshown)
    exact ⟨terms, ⟨_, _, withoutBlanks_display h, hbody, hsplit, hspells⟩,
      denseCoefficients_of_entries hentries hshown⟩

/-- **A polynomial is read back from its text in its normal form**, over the domain of all
equations. -/
theorem readPolynomial_display {most : Nat} (h : ∀ x ∈ p.numbers, x.isNaN = false)
    (hminus : ∀ c ∈ p.coefficients, c.minus = false)
    (hword : p.coefficients.length < wordSize) (hpos : 1 ≤ most)
    (hlength : p.coefficients.length ≤ most) :
    readPolynomial most (.whole (withoutBlanks p.display)) =
      .ok ⟨normalCoefficients p.coefficients, defaultStart, defaultStep, defaultExtent,
        .never⟩ := by
  obtain ⟨terms, hspells, hdense⟩ := spellsPolynomial_display h hminus hword
  have hlargest : largestExponent terms + 1 ≤ most := by
    have hnormal := length_normalCoefficients_le p.coefficients
    rw [← hdense, denseCoefficients, List.length_map, List.length_range] at hnormal
    omega
  rw [readPolynomial_of_spellsPolynomial hspells hlargest, polynomialOf, hdense]

end Equations

/-! ## What reading says of coefficients -/

theorem minus_ofLiteral {l : Literal} (h : l.toFloat.isNaN = false) :
    (Coefficient.ofLiteral l : Coefficient Float).minus = false := by
  obtain ⟨negative, magnitude⟩ := l
  cases magnitude with
  | decimal digits scale => exact Bool.and_false negative
  | infinity => exact Bool.and_false negative
  | undefined =>
    have hundefined : ∀ negative, (⟨negative, .undefined⟩ : Literal).toFloat.isNaN = true := by
      decide
    rw [hundefined] at h
    cases h

/-- A sum that is defined has defined summands only, so it keeps no sign. -/
theorem minus_add {a b : Coefficient Float} (h : (a + b).value.isNaN = false) :
    (a + b).minus = false := by
  rw [Coefficient.value_add] at h
  have hdefined : ¬ (a.value.isNaN = true ∨ b.value.isNaN = true) := by
    intro hundefined
    rw [Binary.isNaN_add hundefined] at h
    cases h
  rw [not_or, Bool.not_eq_true, Bool.not_eq_true] at hdefined
  obtain ⟨ha, hb⟩ := hdefined
  change (if b.value.isNaN then b.minus
    else if a.value.isNaN then a.minus else (a.value + b.value).isNaN) = false
  rw [hb, if_neg Bool.false_ne_true, ha, if_neg Bool.false_ne_true, h]

theorem minus_foldl (rest : List (Coefficient Float)) :
    ∀ c : Coefficient Float, (c.value.isNaN = false → c.minus = false) →
      (rest.foldl (· + ·) c).value.isNaN = false → (rest.foldl (· + ·) c).minus = false := by
  induction rest with
  | nil => exact fun c hc => hc
  | cons d rest ih => exact fun c _ => ih (c + d) minus_add

/-- A coefficient that was read keeps a sign only if its value is undefined. -/
theorem minus_eq_false_of_mem_denseCoefficients {terms : List Term} {c : Coefficient Float}
    (hc : c ∈ denseCoefficients terms) (h : c.value.isNaN = false) : c.minus = false := by
  obtain ⟨k, -, rfl⟩ := List.mem_map.1 hc
  rw [coefficientAt, factorsAt] at h ⊢
  cases hterms : terms.filter fun t => t.exponent = k with
  | nil => rfl
  | cons t rest =>
    rw [hterms] at h
    exact minus_foldl _ _ minus_ofLiteral h

end Equation

end PlotSheet
