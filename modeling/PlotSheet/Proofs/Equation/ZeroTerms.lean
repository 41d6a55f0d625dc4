import PlotSheet.Proofs.Equation.PolynomialDisplay
import PlotSheet.Proofs.Number.SignedZero

/-!
# Zero terms

A polynomial has a coefficient for every exponent up to its degree. Its text leaves out the terms
whose coefficient is zero, but its value adds them like all others. Such a term adds nothing as long
as its power is finite. Once a power overflows, zero times an infinity is undefined, and the value
is undefined from there on, though the text tells of no such term.

## Main definitions

* `shownSum`: the sum of the terms that the text of a polynomial shows
* `ZerosVanish`: no zero coefficient meets a power that is not finite
* `Polynomial.IsOrdinary`: finite coefficients, not more than memory has addresses
* `roundedPower`: powers of finite numbers, rounded once

## Main results

* `addTerms_eq_shownSum`, `isNaN_addTerms`: the value with zero terms that vanish, and without
* `shownTerms_eq_of_display_eq`: the text determines the terms that it shows
* `value_eq_shownSum_iff`: when a value is the sum of the shown terms, and what the text tells of it
-/

namespace PlotSheet

open Binary Float.Model Float.Model.UnpackedFloat

/-! ## The sum of the shown terms -/

section Value

variable [Pow Float Nat] {x : Float} {cs : List (Coefficient Float)} {c : Coefficient Float}

/-- The sum of the terms with a coefficient other than zero, in the order of their exponents. -/
def shownSum (x : Float) (cs : List (Coefficient Float)) : Float :=
  (shownTerms cs).reverse.foldl (fun sum t => sum + t.2.value * x ^ t.1) (Scalar.ofInt 0)

/-- No zero coefficient is multiplied by a power that is not finite. -/
def ZerosVanish (x : Float) (cs : List (Coefficient Float)) : Prop :=
  ∀ t ∈ (List.range cs.length).zip cs, t.2.isZero = true → (x ^ t.1).isFinite = true

instance (x : Float) (cs : List (Coefficient Float)) : Decidable (ZerosVanish x cs) :=
  inferInstanceAs (Decidable (∀ t ∈ _, _ → _))

theorem addTerms_concat (sum : Float) (exponent : Nat) :
    Polynomial.addTerms x sum exponent (cs ++ [c]) =
      Polynomial.addTerms x sum exponent cs + c.value * x ^ (exponent + cs.length) := by
  induction cs generalizing sum exponent with
  | nil => rfl
  | cons d cs ih =>
    rw [List.cons_append, Polynomial.addTerms, Polynomial.addTerms, ih, List.length_cons,
      Nat.add_right_comm, Nat.add_assoc]

theorem shownSum_concat :
    shownSum x (cs ++ [c]) =
      if c.isZero then shownSum x cs else shownSum x cs + c.value * x ^ cs.length := by
  rw [shownSum, shownTerms_concat]
  cases c.isZero with
  | true => rfl
  | false => simp [shownSum]

theorem zerosVanish_concat :
    ZerosVanish x (cs ++ [c]) ↔
      ZerosVanish x cs ∧ (c.isZero = true → (x ^ cs.length).isFinite = true) := by
  rw [ZerosVanish, zip_range_concat, List.forall_mem_append, List.forall_mem_singleton]
  rfl

/-- The sums start from the positive zero and never get to the negative one. -/
theorem addTerms_ne_negative_zero :
    Polynomial.addTerms x (Scalar.ofInt 0) 0 cs ≠ number (.zero .negative) := by
  induction cs using List.reverseRecOn with
  | nil =>
    change Float.ofInt 0 ≠ number (.zero .negative)
    decide
  | append_singleton cs c ih =>
    rw [addTerms_concat]
    exact add_ne_negative_zero ih

/-- Zero terms with finite powers add nothing. -/
theorem addTerms_eq_shownSum (h : ZerosVanish x cs) :
    Polynomial.addTerms x (Scalar.ofInt 0) 0 cs = shownSum x cs := by
  induction cs using List.reverseRecOn with
  | nil => rfl
  | append_singleton cs c ih =>
    obtain ⟨hcs, hpower⟩ := zerosVanish_concat.1 h
    rw [addTerms_concat, shownSum_concat, ← ih hcs, Nat.zero_add]
    cases hc : c.isZero with
    | true =>
      obtain ⟨s, hs⟩ := exists_mul_eq_zero hc (hpower hc)
      rw [hs, if_pos rfl]
      exact add_zero_of_ne addTerms_ne_negative_zero s
    | false => rfl

/-- A zero term with a power that is not finite makes the sum undefined, whatever is added behind
it. -/
theorem isNaN_addTerms (h : ¬ ZerosVanish x cs) :
    (Polynomial.addTerms x (Scalar.ofInt 0) 0 cs).isNaN = true := by
  induction cs using List.reverseRecOn with
  | nil => exact absurd (fun t ht => nomatch ht) h
  | append_singleton cs c ih =>
    rw [addTerms_concat, Nat.zero_add]
    apply isNaN_add
    by_cases hcs : ZerosVanish x cs
    · rw [zerosVanish_concat, not_and, Classical.not_imp] at h
      obtain ⟨hc, hpower⟩ := h hcs
      exact .inr (isNaN_zero_mul hc hpower)
    · exact .inl (ih hcs)

end Value

/-! ## The text and the shown terms -/

/-- Finite coefficients, which need no sign beside their values, and not more of them than memory
has addresses. -/
structure Polynomial.IsOrdinary (p : Polynomial Float) : Prop where
  isFinite : ∀ c ∈ p.coefficients, c.value.isFinite = true
  minus : ∀ c ∈ p.coefficients, c.minus = false
  length_lt : p.coefficients.length < wordSize

/-- **The text of a polynomial determines the terms that it shows.** -/
theorem shownTerms_eq_of_display_eq {p q : Polynomial Float} (hp : p.IsOrdinary)
    (hq : q.IsOrdinary) (h : p.display = q.display) :
    shownTerms p.coefficients = shownTerms q.coefficients := by
  have hdefined {r : Polynomial Float} (hr : r.IsOrdinary) : ∀ y ∈ r.numbers, y.isNaN = false := by
    intro y hy
    obtain ⟨c, hc, rfl⟩ := List.mem_map.1 hy
    exact isNaN_of_isFinite (hr.isFinite c hc)
  obtain ⟨terms, hspells, hdense⟩ :=
    Equation.spellsPolynomial_display (hdefined hp) hp.minus hp.length_lt
  obtain ⟨terms', hspells', hdense'⟩ :=
    Equation.spellsPolynomial_display (hdefined hq) hq.minus hq.length_lt
  rw [← h] at hspells'
  obtain rfl := hspells.unique hspells'
  rw [← shownTerms_normalCoefficients p.coefficients, ← hdense, hdense',
    shownTerms_normalCoefficients]

/-! ## Rounded powers -/

/-- The power of a finite number, rounded once. Zeros and infinities keep their sign to odd
powers. -/
def roundedPower (x : Float) (n : Nat) : Float :=
  match x.toModel.unpack with
  | .finite s m e _ =>
    number (UnpackedFloat.normalize Format.binary64 (s.apply m ^ n) (e * n) .positive)
  | _ => if n = 0 then 1 else if n % 2 = 0 then x.abs else x

theorem isRounding_roundedPower {x : Float} (hx : x.isFinite = true) (n : Nat) :
    IsRounding (roundedPower x n) (exact x ^ n) := by
  rcases finite_cases hx with ⟨s, rfl⟩ | ⟨s, m, e, h, rfl⟩
  · have hpower : roundedPower (number (.zero s)) n =
        if n = 0 then 1 else if n % 2 = 0 then (number (.zero s)).abs else number (.zero s) := by
      rw [roundedPower, unpack_number (.zero s)]
    rw [hpower, exact_number (.zero s), value]
    -- the power of a zero is one for the exponent zero, and a zero for all others
    by_cases hn : n = 0
    · subst hn
      have hone := isRounding_ofNat 1
      rw [Nat.cast_one] at hone
      rw [if_pos rfl, pow_zero]
      exact hone
    · rw [if_neg hn, zero_pow hn, number_abs (.zero s)]
      split
      · exact isRounding_number (.zero _) rounds_zero
      · exact isRounding_number (.zero _) rounds_zero
  · have hpower : roundedPower (number (.finite s m e h.pos)) n =
        number (UnpackedFloat.normalize Format.binary64 (s.apply m ^ n) (e * n) .positive) := by
      rw [roundedPower, unpack_number (.finite s h)]
    have hvalue : signed s ((m : Rat) * 2 ^ e) ^ n =
        ((s.apply m ^ n : Int) : Rat) * 2 ^ (e * n) := by
      rw [zpow_mul, zpow_natCast, Int.cast_pow, ← mul_pow]
      cases s with
      | positive => rfl
      | negative => rw [signed, Sign.apply, Int.cast_neg, neg_mul, Int.cast_natCast]
    obtain ⟨hrounds, hsized⟩ := rounds_normalize (s.apply m ^ n) (e * n)
    rw [hpower, exact_number (.finite s h), value, hvalue]
    exact isRounding_number hsized hrounds

/-! ## Values -/

section Value

variable [Pow Float Nat] {x : Float}

theorem isNaN_value {p : Polynomial Float} (h : ¬ ZerosVanish x p.coefficients) :
    (p.value x).isNaN = true :=
  isNaN_addTerms h

/-- A value with zero terms that vanish is one without only if it is undefined anyway. -/
theorem addTerms_eq_addTerms_iff {cs ds : List (Coefficient Float)} (h : ZerosVanish x cs)
    (h' : ¬ ZerosVanish x ds) :
    Polynomial.addTerms x (Scalar.ofInt 0) 0 cs = Polynomial.addTerms x (Scalar.ofInt 0) 0 ds ↔
      (shownSum x cs).isNaN = true := by
  rw [addTerms_eq_shownSum h]
  constructor
  · intro heq
    rw [heq]
    exact isNaN_addTerms h'
  · exact fun hnan => eq_of_isNaN hnan (isNaN_addTerms h')

/-- **When zero terms do not influence the value of a polynomial.** The value is the sum of the
shown terms exactly if all zero coefficients meet finite powers, or if that sum is undefined anyway;
a zero coefficient that meets another power makes the value undefined. The sum of the shown terms is
told by the text: polynomials with the same text have the same one, and the same value exactly if
the zero terms of both vanish, or those of neither, or the sum is undefined anyway. -/
theorem value_eq_shownSum_iff (x : Float) (p : Polynomial Float) :
    (p.value x = shownSum x p.coefficients ↔
      ZerosVanish x p.coefficients ∨ (shownSum x p.coefficients).isNaN = true) ∧
    (¬ ZerosVanish x p.coefficients → (p.value x).isNaN = true) ∧
    ∀ q : Polynomial Float, p.IsOrdinary → q.IsOrdinary → p.display = q.display →
      shownSum x p.coefficients = shownSum x q.coefficients ∧
        (p.value x = q.value x ↔
          (ZerosVanish x p.coefficients ↔ ZerosVanish x q.coefficients) ∨
            (shownSum x p.coefficients).isNaN = true) := by
  refine ⟨?_, isNaN_value, ?_⟩
  · by_cases hzeros : ZerosVanish x p.coefficients
    · exact iff_of_true (addTerms_eq_shownSum hzeros) (.inl hzeros)
    · have hvalue := isNaN_value hzeros
      constructor
      · intro heq
        rw [heq] at hvalue
        exact .inr hvalue
      · rintro (hvanish | hnan)
        · exact absurd hvanish hzeros
        · exact eq_of_isNaN hvalue hnan
  · intro q hp hq hdisplay
    have hsum : shownSum x p.coefficients = shownSum x q.coefficients := by
      rw [shownSum, shownTerms_eq_of_display_eq hp hq hdisplay, shownSum]
    refine ⟨hsum, ?_⟩
    rw [Polynomial.value, Polynomial.value]
    by_cases hzeros : ZerosVanish x p.coefficients
    · by_cases hzeros' : ZerosVanish x q.coefficients
      · rw [addTerms_eq_shownSum hzeros, addTerms_eq_shownSum hzeros']
        exact iff_of_true hsum (.inl (iff_of_true hzeros hzeros'))
      · rw [addTerms_eq_addTerms_iff hzeros hzeros']
        exact (or_iff_right fun hiff => hzeros' (hiff.1 hzeros)).symm
    · by_cases hzeros' : ZerosVanish x q.coefficients
      · rw [eq_comm, addTerms_eq_addTerms_iff hzeros' hzeros, hsum]
        exact (or_iff_right fun hiff => hzeros (hiff.2 hzeros')).symm
      · exact iff_of_true (eq_of_isNaN (isNaN_addTerms hzeros) (isNaN_addTerms hzeros'))
          (.inl (iff_of_false hzeros hzeros'))

end Value

/-- The constant one with zero terms up to an exponent. -/
def paddedOne (n : Nat) : Polynomial Float :=
  ⟨.ofInt 1 :: List.replicate n (.ofInt 0), -10, 0.1, 20, .never⟩

/-- Two zero terms behind a constant do not show, and vanish at two. -/
theorem value_eq_shownSum_iff_padded :
    (paddedOne 2).display = (paddedOne 0).display ∧
      @Polynomial.value Float _ ⟨roundedPower⟩ (paddedOne 2) 2 =
        @Polynomial.value Float _ ⟨roundedPower⟩ (paddedOne 0) 2 := by
  have hpadded : (paddedOne 2).IsOrdinary := ⟨by decide +kernel, by decide +kernel, by decide⟩
  have hone : (paddedOne 0).IsOrdinary := ⟨by decide +kernel, by decide +kernel, by decide⟩
  have hdisplay : (paddedOne 2).display = (paddedOne 0).display := by decide +kernel
  obtain ⟨-, -, hsame⟩ := @value_eq_shownSum_iff ⟨roundedPower⟩ 2 (paddedOne 2)
  exact ⟨hdisplay, (hsame _ hpadded hone hdisplay).2.2
    (.inl (iff_of_true (by decide +kernel) (by decide +kernel)))⟩

/-- Zero terms do influence the value, if powers are rounded: those of ten overflow. -/
theorem not_forall_value_eq_shownSum :
    ¬ ∀ [Pow Float Nat],
      (∀ x : Float, x.isFinite = true → ∀ n : Nat, IsRounding (x ^ n) (exact x ^ n)) →
      ∀ p : Polynomial Float, (∀ c ∈ p.coefficients, c.value.isFinite = true) →
        ∀ x : Float, x.isFinite = true → p.value x = shownSum x p.coefficients := by
  intro h
  have hpowers : ¬ @ZerosVanish ⟨roundedPower⟩ (-10) (paddedOne 309).coefficients := by
    intro hvanish
    have hfinite : (roundedPower (-10) 309).isFinite = true :=
      hvanish (309, .ofInt 0) (by decide +kernel) (by decide)
    have hoverflow : (roundedPower (-10) 309).isFinite = false := by decide +kernel
    rw [hfinite] at hoverflow
    cases hoverflow
  have hsame := @h ⟨roundedPower⟩ (fun _ hx n => isRounding_roundedPower hx n) (paddedOne 309)
    (by decide +kernel) (-10) (by decide)
  have hshown : @shownSum ⟨roundedPower⟩ (-10) (paddedOne 309).coefficients = 1 := by
    decide +kernel
  have hundefined := @isNaN_value ⟨roundedPower⟩ _ _ hpowers
  rw [hsame, hshown] at hundefined
  exact absurd hundefined (by decide)

end PlotSheet
