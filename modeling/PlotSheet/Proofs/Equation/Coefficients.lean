import Mathlib.Data.List.Induction
import PlotSheet.Proofs.Equation.Term

/-!
# Coefficients of terms

Terms are added up by exponent in a list of sums, and the sums are then laid out densely. Whatever
the order and number of terms, each exponent keeps one entry in the list of sums, which holds the
sum of its terms in their order; so the dense list has that sum at each exponent, and zero at the
exponents of no term. No entry lies outside the dense list.

## Main definitions

* `total`: the sum of coefficients in their order
* `coefficientAt`: the sum of the terms with an exponent
* `denseCoefficients`: the sums at all exponents up to the largest one

## Main results

* `lookup_addTerms`: the entries are the sums of the terms with their exponents
* `dense_addTerms`: the dense list holds those sums, if memory for it is set aside
-/

namespace PlotSheet.Equation

variable {α : Type} [Scalar α]

/-- The sum of coefficients from the left; zero for none. -/
def total : List (Coefficient α) → Coefficient α
  | [] => .ofInt 0
  | c :: rest => rest.foldl (· + ·) c

/-- The coefficients of the terms with an exponent, in their order. -/
def factorsAt (terms : List Term) (k : Nat) : List (Coefficient α) :=
  (terms.filter fun t => t.exponent = k).map fun t => .ofLiteral t.factor

/-- The sum of the terms with an exponent. -/
def coefficientAt (terms : List Term) (k : Nat) : Coefficient α :=
  total (factorsAt terms k)

/-- The largest exponent of the terms. -/
def largestExponent (terms : List Term) : Nat :=
  (terms.map Term.exponent).foldr max 0

/-- The sums of the terms with each exponent up to the largest one. -/
def denseCoefficients (terms : List Term) : List (Coefficient α) :=
  (List.range (largestExponent terms + 1)).map (coefficientAt terms)

/-- The list of sums with all the terms. -/
def addTerms (sums : List (Nat × Coefficient α)) (terms : List Term) :
    List (Nat × Coefficient α) :=
  terms.foldl (fun sums t => accumulate (.ofLiteral t.factor) t.exponent sums) sums

theorem factorsAt_eq_nil_iff {terms : List Term} {k : Nat} :
    factorsAt (α := α) terms k = [] ↔ k ∉ terms.map Term.exponent := by
  simp [factorsAt]

/-! ## The list of sums -/

section Sums

variable (c : Coefficient α) (e : Nat)

omit [Scalar α] in
theorem lookup_cons_eq_if (s : Coefficient α) (sums : List (Nat × Coefficient α)) (k : Nat) :
    ((e, s) :: sums).lookup k = if k = e then some s else sums.lookup k := by
  rw [List.lookup_cons]
  by_cases hk : k = e
  · simp [hk]
  · simp [hk, beq_eq_false_iff_ne.2 hk]

theorem lookup_accumulate (sums : List (Nat × Coefficient α)) (k : Nat) :
    (accumulate c e sums).lookup k =
      if k = e then some ((sums.lookup e).elim c (· + c)) else sums.lookup k := by
  induction sums with
  | nil => simp [accumulate, lookup_cons_eq_if]
  | cons p sums ih =>
    obtain ⟨e', s⟩ := p
    by_cases he : e' = e
    · subst he
      by_cases hk : k = e'
      · simp [accumulate, hk]
      · simp [accumulate, lookup_cons_eq_if, hk]
    · by_cases hk : k = e'
      · subst hk
        simp [accumulate, he]
      · simp [accumulate, he, Ne.symm he, lookup_cons_eq_if, hk, ih]

theorem keys_accumulate (sums : List (Nat × Coefficient α)) :
    (accumulate c e sums).map Prod.fst =
      if e ∈ sums.map Prod.fst then sums.map Prod.fst else sums.map Prod.fst ++ [e] := by
  induction sums with
  | nil => simp [accumulate]
  | cons p sums ih =>
    obtain ⟨e', s⟩ := p
    by_cases he : e' = e
    · simp [accumulate, he]
    · have he' : ¬ e = e' := fun h => he h.symm
      simp only [accumulate, if_neg he, List.map_cons, List.mem_cons, he', false_or, ih]
      split <;> simp

theorem nodup_keys_accumulate {sums : List (Nat × Coefficient α)}
    (h : (sums.map Prod.fst).Nodup) : ((accumulate c e sums).map Prod.fst).Nodup := by
  rw [keys_accumulate]
  split
  · exact h
  · next hmem =>
    rw [List.nodup_append]
    refine ⟨h, by simp, fun a ha b hb => ?_⟩
    obtain rfl := List.mem_singleton.1 hb
    intro heq
    exact hmem (heq ▸ ha)

end Sums

theorem addTerms_append (sums : List (Nat × Coefficient α)) (a b : List Term) :
    addTerms sums (a ++ b) = addTerms (addTerms sums a) b :=
  List.foldl_append

theorem nodup_keys_addTerms (terms : List Term) (sums : List (Nat × Coefficient α))
    (h : (sums.map Prod.fst).Nodup) : ((addTerms sums terms).map Prod.fst).Nodup := by
  induction terms generalizing sums with
  | nil => exact h
  | cons t terms ih => exact ih _ (nodup_keys_accumulate _ _ h)

theorem mem_keys_addTerms {terms : List Term} (sums : List (Nat × Coefficient α)) {k : Nat} :
    k ∈ (addTerms sums terms).map Prod.fst ↔
      k ∈ sums.map Prod.fst ∨ k ∈ terms.map Term.exponent := by
  induction terms generalizing sums with
  | nil => simp [addTerms]
  | cons t terms ih =>
    have hstep := ih (accumulate (.ofLiteral t.factor) t.exponent sums)
    rw [keys_accumulate] at hstep
    refine hstep.trans ?_
    split
    · next hmem =>
      rw [List.map_cons, List.mem_cons]
      constructor
      · rintro (h | h)
        · exact .inl h
        · exact .inr (.inr h)
      · rintro (h | rfl | h)
        · exact .inl h
        · exact .inl hmem
        · exact .inr h
    · rw [List.map_cons, List.mem_cons, List.mem_append, List.mem_singleton, or_assoc]

/-- Each exponent keeps the sum of its terms in their order. -/
theorem lookup_addTerms (terms : List Term) (k : Nat) :
    (addTerms ([] : List (Nat × Coefficient α)) terms).lookup k =
      if k ∈ terms.map Term.exponent then some (coefficientAt terms k) else none := by
  induction terms using List.reverseRecOn with
  | nil => rfl
  | append_singleton terms t ih =>
    rw [addTerms_append]
    refine (lookup_accumulate _ _ _ _).trans ?_
    by_cases hk : k = t.exponent
    · subst hk
      have hat : factorsAt (α := α) (terms ++ [t]) t.exponent =
          factorsAt terms t.exponent ++ [.ofLiteral t.factor] := by
        simp [factorsAt]
      simp only [if_true, ih, List.map_append, List.map_singleton, List.mem_append,
        List.mem_singleton, or_true, coefficientAt, hat]
      split
      · next hmem =>
        have hne : factorsAt (α := α) terms t.exponent ≠ [] :=
          fun h => factorsAt_eq_nil_iff.1 h hmem
        obtain ⟨c, rest, hc⟩ := List.exists_cons_of_ne_nil hne
        simp [hc, total]
      · next hmem =>
        have hnil : factorsAt (α := α) terms t.exponent = [] := factorsAt_eq_nil_iff.2 hmem
        simp [hnil, total]
    · have hat : factorsAt (α := α) (terms ++ [t]) k = factorsAt terms k := by
        have hk' : ¬ t.exponent = k := fun h => hk h.symm
        simp [factorsAt, hk']
      simp [hk, ih, coefficientAt, hat]

/-! ## The dense list -/

theorem foldr_max_le_iff {l : List Nat} {k : Nat} : l.foldr max 0 ≤ k ↔ ∀ n ∈ l, n ≤ k := by
  induction l with
  | nil => simp
  | cons n l ih => rw [List.foldr_cons, Nat.max_le, ih, List.forall_mem_cons]

omit [Scalar α] in
theorem denseLength_eq_ok {sums : List (Nat × Coefficient α)}
    (h : ∀ k ∈ sums.map Prod.fst, k < wordSize - 1) :
    denseLength sums = .ok ((sums.map Prod.fst).foldr max 0 + 1) := by
  induction sums with
  | nil => rfl
  | cons p sums ih =>
    obtain ⟨e, s⟩ := p
    have he : e + 1 < wordSize := by
      have := h e (by simp)
      omega
    rw [denseLength, wordSum_eq_ok he, ok_bind,
      ih fun k hk => h k (List.mem_cons_of_mem _ hk), ok_bind]
    simp

/-- Sums that fit are laid out over the list at their exponents. -/
theorem fill_eq_ok {sums : List (Nat × Coefficient α)} :
    ∀ {coefficients : List (Coefficient α)}, (sums.map Prod.fst).Nodup →
      (∀ k ∈ sums.map Prod.fst, k < coefficients.length) →
      ∃ result, fill coefficients sums = .ok result ∧ result.length = coefficients.length ∧
        ∀ k, k < coefficients.length →
          result[k]? = some ((sums.lookup k).getD (coefficients[k]?.getD (.ofInt 0))) := by
  induction sums with
  | nil =>
    intro coefficients _ _
    exact ⟨coefficients, rfl, rfl, fun k hk => by simp [List.getElem?_eq_getElem hk]⟩
  | cons p sums ih =>
    obtain ⟨e, s⟩ := p
    intro coefficients hnodup hlt
    rw [List.map_cons, List.nodup_cons] at hnodup
    have he : e < coefficients.length := hlt e (by simp)
    have hlt' : ∀ k ∈ sums.map Prod.fst, k < (coefficients.set e s).length := by
      intro k hk
      rw [List.length_set]
      exact hlt k (List.mem_cons_of_mem _ hk)
    obtain ⟨result, hfill, hlength, hget⟩ := ih hnodup.2 hlt'
    rw [List.length_set] at hlength hget
    refine ⟨result, ?_, hlength, fun k hk => ?_⟩
    · rw [fill, store_eq_ok he, ok_bind, hfill]
    · rw [hget k hk, lookup_cons_eq_if]
      by_cases hke : k = e
      · subst hke
        have hnone : sums.lookup k = none := by
          rw [List.lookup_eq_none_iff]
          intro p hp
          have hne : k ≠ p.1 := fun h => hnodup.1 (List.mem_map.2 ⟨p, hp, h.symm⟩)
          simpa using hne
        simp [hnone, he]
      · have hset : (coefficients.set e s)[k]? = coefficients[k]? :=
          List.getElem?_set_ne fun h => hke h.symm
        simp [hke, hset]

theorem keys_addTerms_lt {terms : List Term} (h : ∀ t ∈ terms, t.exponent < wordSize - 1) :
    ∀ k ∈ (addTerms ([] : List (Nat × Coefficient α)) terms).map Prod.fst,
      k < wordSize - 1 := by
  intro k hk
  rcases (mem_keys_addTerms []).1 hk with hk | hk
  · cases hk
  · obtain ⟨t, ht, rfl⟩ := List.mem_map.1 hk
    exact h t ht

theorem foldr_max_keys_addTerms (terms : List Term) :
    ((addTerms ([] : List (Nat × Coefficient α)) terms).map Prod.fst).foldr max 0 =
      largestExponent terms := by
  apply Nat.le_antisymm
  · rw [foldr_max_le_iff]
    intro k hk
    rcases (mem_keys_addTerms []).1 hk with hk | hk
    · cases hk
    · exact foldr_max_le_iff.1 (Nat.le_refl _) k hk
  · apply foldr_max_le_iff.2
    intro k hk
    exact foldr_max_le_iff.1 (Nat.le_refl _) k ((mem_keys_addTerms []).2 (.inr hk))

/-- The dense list holds the sum of the terms at each exponent, if memory for it is set aside. -/
theorem dense_addTerms (most : Nat) (body : Span) {terms : List Term}
    (h : ∀ t ∈ terms, t.exponent < wordSize - 1) :
    dense (α := α) most body (addTerms [] terms) =
      if most < largestExponent terms + 1 then
        .error (.invalid ⟨.exponent .tooLarge, body⟩)
      else .ok (denseCoefficients terms) := by
  rw [dense, denseLength_eq_ok (keys_addTerms_lt h), foldr_max_keys_addTerms, lift_ok, ok_bind]
  split
  · rfl
  · have hlt : ∀ k ∈ (addTerms ([] : List (Nat × Coefficient α)) terms).map Prod.fst,
        k < (List.replicate (largestExponent terms + 1) (.ofInt 0 : Coefficient α)).length := by
      intro k hk
      rw [List.length_replicate, Nat.lt_succ_iff, ← foldr_max_keys_addTerms (α := α) terms]
      exact foldr_max_le_iff.1 (Nat.le_refl _) k hk
    obtain ⟨result, hfill, hlength, hget⟩ :=
      fill_eq_ok (nodup_keys_addTerms terms [] List.nodup_nil) hlt
    rw [hfill, lift_ok]
    congr 1
    apply List.ext_getElem?
    intro k
    rw [List.length_replicate] at hlength hget
    by_cases hk : k < largestExponent terms + 1
    · rw [hget k hk, lookup_addTerms]
      split
      · simp [denseCoefficients, hk]
      · next hmem =>
        have hnil : factorsAt (α := α) terms k = [] := factorsAt_eq_nil_iff.2 hmem
        simp [denseCoefficients, hk, coefficientAt, hnil, total]
    · have hlength' : (denseCoefficients (α := α) terms).length ≤ k := by
        rw [denseCoefficients, List.length_map, List.length_range]
        omega
      rw [List.getElem?_eq_none (by omega), List.getElem?_eq_none hlength']

end PlotSheet.Equation
