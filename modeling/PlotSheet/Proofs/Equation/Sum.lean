import Mathlib.Algebra.Order.Field.Rat
import Mathlib.Data.List.Forall2
import Mathlib.Data.List.GetD
import PlotSheet.Proofs.Equation.Dispatch

/-!
# Sums of polynomial equations

Behind a polynomial equation, text that starts with a sign adds the polynomial that it spells by
itself. No term reaches over that sign, so that the terms of both texts are those of the first and
then those of the second, and in exact arithmetic the sums by exponent do not depend on the order in
which terms are added up.

## Main definitions

* `paddedSum`: the pointwise sum of two lists, the shorter one padded with zeros
* `HasTerms`: the text is read as the polynomial of the given terms

## Main results

* `coefficients_polynomialOf_append`, `value_of_paddedSum`: sums of coefficients and of values
* `parse_eq_ok_polynomial_iff`, `hasTerms_append_iff`: the terms of an equation with more text
* `parse_append`: an equation with more text is the sum of two polynomials
-/

namespace PlotSheet.Equation

open PlotSheet.Span Text

/-- The pointwise sum of two lists, the shorter one padded with zeros. -/
def paddedSum : List Rat → List Rat → List Rat
  | [], b => b
  | a, [] => a
  | x :: a, y :: b => (x + y) :: paddedSum a b

@[simp] theorem paddedSum_nil (a : List Rat) : paddedSum a [] = a := by
  cases a <;> rfl

@[simp] theorem length_paddedSum (a b : List Rat) :
    (paddedSum a b).length = max a.length b.length := by
  induction a generalizing b with
  | nil => simp [paddedSum]
  | cons x a ih =>
    cases b with
    | nil => simp
    | cons y b => simp [paddedSum, ih]

theorem getD_paddedSum (a b : List Rat) (k : Nat) :
    (paddedSum a b).getD k 0 = a.getD k 0 + b.getD k 0 := by
  induction a generalizing b k with
  | nil => simp [paddedSum]
  | cons x a ih =>
    cases b with
    | nil => simp
    | cons y b =>
      cases k with
      | zero => rfl
      | succ k => exact ih b k

/-! ## The terms of both texts -/

/-- The terms of an equation with text behind it that starts with a sign are those of the two. -/
theorem spellsPolynomial_append_iff {a b : List Char} (ha : a ≠ [])
    (hb : ∃ c rest, b = c :: rest ∧ isSign c = true) {terms : List Term} :
    SpellsPolynomial ('y' :: '=' :: (a ++ b)) terms ↔
      ∃ s t, terms = s ++ t ∧ SpellsPolynomial ('y' :: '=' :: a) s ∧
        SpellsPolynomial ('y' :: '=' :: b) t := by
  have hsplit := (isSignedSplit_signedTerms a).append (isSignedSplit_signedTerms b) ha hb
  constructor
  · rintro ⟨body, texts, hbody, -, htexts, hterms⟩
    obtain rfl : a ++ b = body := body_inj hbody
    obtain rfl := (isSignedSplit_iff.1 htexts).trans (isSignedSplit_iff.1 hsplit).symm
    have hs := List.forall₂_take (signedTerms a).length hterms
    have ht := List.forall₂_drop (signedTerms a).length hterms
    rw [List.take_left] at hs
    rw [List.drop_left] at ht
    obtain ⟨c, rest, rfl, -⟩ := hb
    exact ⟨_, _, (List.take_append_drop (signedTerms a).length terms).symm,
      ⟨a, _, rfl, ha, isSignedSplit_signedTerms a, hs⟩,
      ⟨_, _, rfl, List.cons_ne_nil _ _, isSignedSplit_signedTerms _, ht⟩⟩
  · rintro ⟨s, t, rfl, ⟨bodyA, textsA, hbodyA, -, hsplitA, hs⟩,
      ⟨bodyB, textsB, hbodyB, -, hsplitB, ht⟩⟩
    obtain rfl : a = bodyA := body_inj hbodyA
    obtain rfl : b = bodyB := body_inj hbodyB
    exact ⟨_, _, rfl, List.append_ne_nil_of_left_ne_nil ha b, hsplitA.append hsplitB ha hb,
      List.rel_append hs ht⟩
@[simp] theorem largestExponent_append (s t : List Term) :
    largestExponent (s ++ t) = max (largestExponent s) (largestExponent t) := by
  induction s with
  | nil => simp [largestExponent]
  | cons u s ih =>
    simp only [largestExponent, List.cons_append, List.map_cons, List.foldr_cons] at ih ⊢
    rw [ih, Nat.max_assoc]

/-! ## Sums by exponent -/

/-- In exact arithmetic a sum from the left is a sum. -/
theorem value_foldl (c : Coefficient Rat) (rest : List (Coefficient Rat)) :
    (rest.foldl (· + ·) c).value = c.value + (rest.map Coefficient.value).sum := by
  induction rest generalizing c with
  | nil => exact (add_zero c.value).symm
  | cons d rest ih =>
    rw [List.foldl_cons, ih, List.map_cons, List.sum_cons, ← add_assoc]
    rfl

theorem value_total (cs : List (Coefficient Rat)) :
    (total cs).value = (cs.map Coefficient.value).sum := by
  cases cs with
  | nil => rfl
  | cons c rest => exact value_foldl c rest

theorem factorsAt_append {α : Type} [Scalar α] (s t : List Term) (k : Nat) :
    factorsAt (α := α) (s ++ t) k = factorsAt s k ++ factorsAt t k := by
  simp [factorsAt]

theorem value_coefficientAt_append (s t : List Term) (k : Nat) :
    (coefficientAt (s ++ t) k : Coefficient Rat).value =
      (coefficientAt s k : Coefficient Rat).value +
        (coefficientAt t k : Coefficient Rat).value := by
  rw [coefficientAt, coefficientAt, coefficientAt, value_total, value_total, value_total,
    factorsAt_append, List.map_append, List.sum_append]

/-- Past the largest exponent there is nothing to sum up. -/
theorem value_coefficientAt_of_lt {terms : List Term} {k : Nat} (h : largestExponent terms < k) :
    (coefficientAt terms k : Coefficient Rat).value = 0 := by
  have hnil : factorsAt (α := Rat) terms k = [] := by
    refine factorsAt_eq_nil_iff.2 fun hmem => ?_
    exact absurd (foldr_max_le_iff.1 (Nat.le_refl _) k hmem) (Nat.not_le_of_lt h)
  rw [coefficientAt, hnil]
  rfl

/-- The values of the coefficients of a polynomial by exponent. -/
theorem getD_coefficients_polynomialOf (terms : List Term) (k : Nat) :
    ((polynomialOf terms : Polynomial Rat).coefficients.map Coefficient.value).getD k 0 =
      (coefficientAt terms k : Coefficient Rat).value := by
  rw [polynomialOf, denseCoefficients, List.map_map]
  by_cases hk : k < largestExponent terms + 1
  · simp [List.getD, hk]
  · rw [value_coefficientAt_of_lt (Nat.lt_of_succ_le (Nat.le_of_not_lt hk))]
    simp [List.getD, hk]

/-- The coefficients of the terms of two texts are the sums of those of each text. -/
theorem coefficients_polynomialOf_append (s t : List Term) :
    (polynomialOf (s ++ t) : Polynomial Rat).coefficients.map Coefficient.value =
      paddedSum ((polynomialOf s : Polynomial Rat).coefficients.map Coefficient.value)
        ((polynomialOf t : Polynomial Rat).coefficients.map Coefficient.value) := by
  refine List.ext_getElem ?_ fun k hk hk' => ?_
  · simp [polynomialOf, denseCoefficients, Nat.add_max_add_right]
  · rw [← List.getD_eq_getElem _ 0 hk, ← List.getD_eq_getElem _ 0 hk', getD_paddedSum,
      getD_coefficients_polynomialOf, getD_coefficients_polynomialOf,
      getD_coefficients_polynomialOf, value_coefficientAt_append]

/-! ## Values -/

/-- A partial sum is what it starts from and what is added to it. -/
theorem addTerms_add (x s t : Rat) (e : Nat) (cs : List (Coefficient Rat)) :
    Polynomial.addTerms x (s + t) e cs = s + Polynomial.addTerms x t e cs := by
  induction cs generalizing t e with
  | nil => rfl
  | cons c cs ih =>
    rw [Polynomial.addTerms, Polynomial.addTerms, ← ih]
    exact congrArg (Polynomial.addTerms x · (e + 1) cs) (add_assoc s t _)

theorem addTerms_congr {as bs : List (Coefficient Rat)}
    (h : as.map Coefficient.value = bs.map Coefficient.value) (x s : Rat) (e : Nat) :
    Polynomial.addTerms x s e as = Polynomial.addTerms x s e bs := by
  induction as generalizing bs s e with
  | nil =>
    obtain rfl := List.map_eq_nil_iff.1 h.symm
    rfl
  | cons a as ih =>
    cases bs with
    | nil => cases h
    | cons b bs =>
      obtain ⟨hab, h⟩ := List.cons.inj h
      rw [Polynomial.addTerms, Polynomial.addTerms, hab, ih h]

/-- Sums of coefficients give sums of values. -/
theorem addTerms_of_paddedSum {as bs cs : List (Coefficient Rat)}
    (h : cs.map Coefficient.value =
      paddedSum (as.map Coefficient.value) (bs.map Coefficient.value)) (x s t : Rat) (e : Nat) :
    Polynomial.addTerms x (s + t) e cs =
      Polynomial.addTerms x s e as + Polynomial.addTerms x t e bs := by
  induction as generalizing bs cs s t e with
  | nil => rw [addTerms_add, addTerms_congr h]; rfl
  | cons a as ih =>
    cases bs with
    | nil =>
      rw [List.map_nil, paddedSum_nil] at h
      rw [add_comm, addTerms_add, addTerms_congr h, add_comm]
      rfl
    | cons b bs =>
      cases cs with
      | nil => cases h
      | cons c cs =>
        obtain ⟨hc, h⟩ := List.cons.inj h
        have hsum : s + t + c.value * x ^ e = (s + a.value * x ^ e) + (t + b.value * x ^ e) := by
          rw [hc, add_mul, add_add_add_comm]
        rw [Polynomial.addTerms, Polynomial.addTerms, Polynomial.addTerms, ← ih h]
        exact congrArg (Polynomial.addTerms x · (e + 1) cs) hsum

theorem value_of_paddedSum {p q r : Polynomial Rat}
    (h : r.coefficients.map Coefficient.value =
      paddedSum (p.coefficients.map Coefficient.value) (q.coefficients.map Coefficient.value))
    (x : Rat) : r.value x = p.value x + q.value x := by
  have hsum := addTerms_of_paddedSum h x 0 0 0
  rw [add_zero] at hsum
  exact hsum

/-! ## Equations with more text -/

/-- The text is a polynomial equation with the given terms, and memory is set aside for its
coefficients. -/
structure HasTerms (most : Nat) (text : String) (terms : List Term) : Prop where
  spells : SpellsPolynomial (withoutBlanks text.toList) terms
  fits : largestExponent terms + 1 ≤ most

theorem HasTerms.parse {α : Type} [Scalar α] {most : Nat} {text : String} {terms : List Term}
    (h : HasTerms most text terms) :
    parse (α := α) most text = .ok (.polynomial (polynomialOf terms)) := by
  rw [parse_of_not_parametric most fun hkind => h.spells.not_mem.1 hkind.1,
    readPolynomial_of_spellsPolynomial h.spells h.fits]
  rfl

/-- Exactly these texts are read as a polynomial. -/
theorem parse_eq_ok_polynomial_iff {α : Type} [Scalar α] {most : Nat} {text : String}
    {p : Polynomial α} : parse most text = .ok (.polynomial p) ↔
      ∃ terms, HasTerms most text terms ∧ p = polynomialOf terms := by
  constructor
  · intro h
    rcases read_of_parse h with ⟨q, hq, heq⟩ | ⟨q, -, heq⟩
    · obtain rfl := Curve.polynomial.inj heq
      rcases readPolynomial_cases (α := α) most (withoutBlanks text.toList) with
        ⟨terms, hspells, hfits, hread⟩ | ⟨e, hread, -⟩
      · exact ⟨terms, ⟨hspells, hfits⟩, Except.ok.inj (hq.symm.trans hread)⟩
      · cases hq.symm.trans hread
    · cases heq
  · rintro ⟨terms, hterms, rfl⟩
    exact hterms.parse

theorem withoutBlanks_equation (body : String) :
    withoutBlanks ("y=" ++ body).toList = 'y' :: '=' :: withoutBlanks body.toList := by
  rw [String.toList_append, withoutBlanks_append]
  rfl

/-- The terms of an equation with more text are those of the equation and those that the text has
behind `y=`. -/
theorem hasTerms_append_iff {most : Nat} {a b : String} (ha : withoutBlanks a.toList ≠ [])
    (hb : ∃ c rest, withoutBlanks b.toList = c :: rest ∧ isSign c = true) {terms : List Term} :
    HasTerms most ("y=" ++ a ++ b) terms ↔
      ∃ s t, terms = s ++ t ∧ HasTerms most ("y=" ++ a) s ∧ HasTerms most ("y=" ++ b) t := by
  have htext : withoutBlanks ("y=" ++ a ++ b).toList =
      'y' :: '=' :: (withoutBlanks a.toList ++ withoutBlanks b.toList) := by
    rw [String.append_assoc, withoutBlanks_equation, String.toList_append, withoutBlanks_append]
  constructor
  · rintro ⟨hspells, hfits⟩
    rw [htext] at hspells
    obtain ⟨s, t, rfl, hs, ht⟩ := (spellsPolynomial_append_iff ha hb).1 hspells
    rw [← withoutBlanks_equation] at hs ht
    rw [largestExponent_append] at hfits
    exact ⟨s, t, rfl, ⟨hs, by omega⟩, ht, by omega⟩
  · rintro ⟨s, t, rfl, ⟨hs, hfits⟩, ht, hfits'⟩
    rw [withoutBlanks_equation] at hs ht
    refine ⟨?_, ?_⟩
    · rw [htext]
      exact (spellsPolynomial_append_iff ha hb).2 ⟨s, t, rfl, hs, ht⟩
    · rw [largestExponent_append]
      omega

/-- **More text adds its own polynomial.** Behind a polynomial equation, a text that starts with a
sign is read exactly if it is one behind `y=`, and then gives the sum of both polynomials: the
coefficients are the sums of those of both, the shorter list padded with zeros, and so are the
values. -/
theorem parse_append (most : Nat) (a b : String) (ha : withoutBlanks a.toList ≠ [])
    (hb : ∃ c rest, withoutBlanks b.toList = c :: rest ∧ isSign c = true) :
    ((∃ r : Polynomial Rat, parse most ("y=" ++ a ++ b) = .ok (.polynomial r)) ↔
      (∃ p : Polynomial Rat, parse most ("y=" ++ a) = .ok (.polynomial p)) ∧
        ∃ q : Polynomial Rat, parse most ("y=" ++ b) = .ok (.polynomial q)) ∧
    ∀ p q r : Polynomial Rat, parse most ("y=" ++ a) = .ok (.polynomial p) →
      parse most ("y=" ++ b) = .ok (.polynomial q) →
      parse most ("y=" ++ a ++ b) = .ok (.polynomial r) →
      r.coefficients.map Coefficient.value =
        paddedSum (p.coefficients.map Coefficient.value) (q.coefficients.map Coefficient.value) ∧
      ∀ x, r.value x = p.value x + q.value x := by
  have hterms (terms : List Term) := @hasTerms_append_iff most a b ha hb terms
  refine ⟨⟨?_, ?_⟩, ?_⟩
  · rintro ⟨r, hr⟩
    obtain ⟨terms, hsum, -⟩ := parse_eq_ok_polynomial_iff.1 hr
    obtain ⟨s, t, -, hs, ht⟩ := (hterms _).1 hsum
    exact ⟨⟨_, hs.parse⟩, _, ht.parse⟩
  · rintro ⟨⟨p, hp⟩, q, hq⟩
    obtain ⟨s, hs, -⟩ := parse_eq_ok_polynomial_iff.1 hp
    obtain ⟨t, ht, -⟩ := parse_eq_ok_polynomial_iff.1 hq
    exact ⟨_, ((hterms _).2 ⟨s, t, rfl, hs, ht⟩).parse⟩
  · intro p q r hp hq hr
    obtain ⟨s, hs, rfl⟩ := parse_eq_ok_polynomial_iff.1 hp
    obtain ⟨t, ht, rfl⟩ := parse_eq_ok_polynomial_iff.1 hq
    have hsum := ((hterms _).2 ⟨s, t, rfl, hs, ht⟩).parse (α := Rat)
    obtain rfl := Curve.polynomial.inj (Except.ok.inj (hr.symm.trans hsum))
    have hcoefficients := coefficients_polynomialOf_append s t
    exact ⟨hcoefficients, value_of_paddedSum hcoefficients⟩

/-- A linear term behind a parabola is filled in between its coefficients. -/
theorem parse_append_linear :
    withoutBlanks "x^2 + 1".toList ≠ [] ∧
    (∃ c rest, withoutBlanks "- 3x".toList = c :: rest ∧ isSign c = true) ∧
    ∃ p q r : Polynomial Rat, parse 3 ("y=" ++ "x^2 + 1") = .ok (.polynomial p) ∧
      parse 3 ("y=" ++ "- 3x") = .ok (.polynomial q) ∧
      parse 3 ("y=" ++ "x^2 + 1" ++ "- 3x") = .ok (.polynomial r) ∧
      r.coefficients.map Coefficient.value = [1, -3, 1] ∧
      ∀ x, r.value x = p.value x + q.value x := by
  have hp : parse (α := Rat) 3 ("y=" ++ "x^2 + 1") = .ok (.polynomial
      (polynomialOf [⟨2, unitLiteral false⟩, ⟨0, ⟨false, .decimal 1 0⟩⟩])) := by rfl
  have hq : parse (α := Rat) 3 ("y=" ++ "- 3x") = .ok (.polynomial
      (polynomialOf [⟨1, ⟨true, .decimal 3 0⟩⟩])) := by rfl
  have ha : withoutBlanks "x^2 + 1".toList ≠ [] := by decide
  have hb : ∃ c rest, withoutBlanks "- 3x".toList = c :: rest ∧ isSign c = true :=
    ⟨'-', ['3', 'x'], by decide, by decide⟩
  have hsum := parse_append 3 "x^2 + 1" "- 3x" ha hb
  obtain ⟨r, hr⟩ := hsum.1.2 ⟨⟨_, hp⟩, _, hq⟩
  obtain ⟨hcoefficients, hvalue⟩ := hsum.2 _ _ r hp hq hr
  exact ⟨ha, hb, _, _, r, hp, hq, hr, hcoefficients.trans (by decide +kernel), hvalue⟩

end PlotSheet.Equation
