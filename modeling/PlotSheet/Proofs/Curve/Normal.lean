import Mathlib.Data.List.DropRight
import PlotSheet.Curve.Display

/-!
# The normal form of a polynomial

The text of a polynomial shows the terms whose coefficient is not zero. What it does not tell is
how many zeros end the list of coefficients, and the signs of zeros. Polynomials that differ in
nothing else have one normal form, and the text of each is that of the normal form.

## Main definitions

* `Coefficient.isZero`, `Coefficient.normal`: zeros, and zeros made positive
* `Polynomial.normal`: no zeros at the end, and no negative zeros
* `shownTerms`: the terms that the text shows

## Main results

* `shownTerms_concat`: the shown terms, one coefficient after the other
* `shownTerms_normalCoefficients`: the normal form shows the same terms
* `display_normal`: the normal form has the same text
-/

namespace PlotSheet

/-- Whether a coefficient is zero, of either sign. -/
def Coefficient.isZero (c : Coefficient Float) : Bool :=
  c.value == 0

/-- The coefficient with a zero made positive. -/
def Coefficient.normal (c : Coefficient Float) : Coefficient Float :=
  if c.isZero then .ofInt 0 else c

/-- The coefficients without the zeros at their end, of which one is kept if there is nothing else,
and with all zeros positive. -/
def normalCoefficients (coefficients : List (Coefficient Float)) : List (Coefficient Float) :=
  let kept := coefficients.rdropWhile Coefficient.isZero
  if kept.isEmpty then [.ofInt 0] else kept.map Coefficient.normal

/-- The polynomial with its coefficients in normal form, over the same domain. -/
def Polynomial.normal (p : Polynomial Float) : Polynomial Float :=
  { p with coefficients := normalCoefficients p.coefficients }

/-- The terms with a coefficient other than zero, by descending exponent. -/
def shownTerms (coefficients : List (Coefficient Float)) : List (Nat × Coefficient Float) :=
  ((List.range coefficients.length).zip coefficients).reverse.filter fun t => !t.2.isZero

/-! ## Coefficients in normal form -/

section NormalForm

variable (cs : List (Coefficient Float)) {c : Coefficient Float}

theorem isZero_ofInt_zero : (Coefficient.ofInt 0 : Coefficient Float).isZero = true := by
  decide

theorem normalCoefficients_concat_of_isZero (h : c.isZero = true) :
    normalCoefficients (cs ++ [c]) = normalCoefficients cs := by
  rw [normalCoefficients, List.rdropWhile_concat_pos _ _ _ h, normalCoefficients]

theorem normalCoefficients_concat (h : c.isZero = false) :
    normalCoefficients (cs ++ [c]) = (cs ++ [c]).map Coefficient.normal := by
  have hkept : (cs ++ [c]).rdropWhile Coefficient.isZero = cs ++ [c] :=
    List.rdropWhile_concat_neg _ _ _ (by simp [h])
  simp [normalCoefficients, hkept]

/-- The normal form is no longer than the list, but for an empty one. -/
theorem length_normalCoefficients_le : (normalCoefficients cs).length ≤ max cs.length 1 := by
  rw [normalCoefficients]
  split
  · exact Nat.le_max_right ..
  · rw [List.length_map]
    exact Nat.le_trans (List.rdropWhile_prefix _ _).length_le (Nat.le_max_left ..)

end NormalForm

/-! ## The terms that are shown -/

section ShownTerms

variable (cs : List (Coefficient Float)) (c : Coefficient Float)

theorem zip_range_concat :
    (List.range (cs ++ [c]).length).zip (cs ++ [c]) =
      (List.range cs.length).zip cs ++ [(cs.length, c)] := by
  rw [List.length_append, List.length_singleton, List.range_succ,
    List.zip_append List.length_range]
  rfl

theorem shownTerms_concat :
    shownTerms (cs ++ [c]) = if c.isZero then shownTerms cs
      else (cs.length, c) :: shownTerms cs := by
  rw [shownTerms, zip_range_concat, List.reverse_append, List.reverse_singleton,
    List.singleton_append, List.filter_cons, shownTerms]
  cases c.isZero <;> rfl

/-- The shown term with an exponent is that of the coefficient there, if it is not zero. -/
theorem filter_shownTerms (k : Nat) :
    ((shownTerms cs).filter fun t => t.1 = k).map Prod.snd =
      cs[k]?.toList.filter fun c => !c.isZero := by
  induction cs using List.reverseRecOn with
  | nil => rfl
  | append_singleton cs c ih =>
    rw [shownTerms_concat]
    by_cases hk : cs.length = k
    · subst hk
      rw [List.getElem?_eq_none (Nat.le_refl _)] at ih
      rw [List.getElem?_concat_length]
      cases hc : c.isZero with
      | true => simpa [hc] using ih
      | false => simpa [hc] using ih
    · have hget : (cs ++ [c])[k]? = cs[k]? := by
        rcases Nat.lt_or_gt_of_ne hk with hlt | hgt
        · rw [List.getElem?_eq_none (by simp; omega), List.getElem?_eq_none (by omega)]
        · exact List.getElem?_append_left hgt
      rw [hget, ← ih]
      cases c.isZero with
      | true => rfl
      | false => simp [hk]

theorem forall_mem_shownTerms :
    ∀ t ∈ shownTerms cs, t.1 < cs.length ∧ t.2 ∈ cs ∧ t.2.isZero = false := by
  intro t ht
  obtain ⟨hmem, hzero⟩ := List.mem_filter.1 ht
  obtain ⟨hexponent, hcoefficient⟩ := List.of_mem_zip (List.mem_reverse.1 hmem)
  exact ⟨List.mem_range.1 hexponent, hcoefficient, by simpa using hzero⟩

theorem shownTerms_map_normal : shownTerms (cs.map Coefficient.normal) = shownTerms cs := by
  induction cs using List.reverseRecOn with
  | nil => rfl
  | append_singleton cs c ih =>
    rw [List.map_append, List.map_singleton, shownTerms_concat, shownTerms_concat, ih,
      List.length_map, Coefficient.normal]
    cases hc : c.isZero with
    | true => rw [if_pos rfl, if_pos isZero_ofInt_zero, if_pos rfl]
    | false => rw [if_neg Bool.false_ne_true, hc]

/-- The normal form shows the same terms. -/
theorem shownTerms_normalCoefficients : shownTerms (normalCoefficients cs) = shownTerms cs := by
  induction cs using List.reverseRecOn with
  | nil => decide
  | append_singleton cs c ih =>
    cases hc : c.isZero with
    | true =>
      rw [normalCoefficients_concat_of_isZero cs hc, ih, shownTerms_concat, hc, if_pos rfl]
    | false => rw [normalCoefficients_concat cs hc, shownTerms_map_normal]

/-- Without shown terms the normal form is a single zero. -/
theorem normalCoefficients_of_shownTerms_eq_nil (h : shownTerms cs = []) :
    normalCoefficients cs = [.ofInt 0] := by
  induction cs using List.reverseRecOn with
  | nil => rfl
  | append_singleton cs c ih =>
    rw [shownTerms_concat] at h
    cases hc : c.isZero with
    | true =>
      rw [hc, if_pos rfl] at h
      rw [normalCoefficients_concat_of_isZero cs hc, ih h]
    | false =>
      rw [hc, if_neg Bool.false_ne_true] at h
      cases h

end ShownTerms

/-! ## Texts -/

namespace Polynomial

theorem displayTerms_filter (entries : List (Nat × Coefficient Float)) :
    ∀ leading, displayTerms leading (entries.filter fun t => !t.2.isZero) =
      displayTerms leading entries := by
  induction entries with
  | nil => exact fun _ => rfl
  | cons t entries ih =>
    obtain ⟨exponent, c⟩ := t
    intro leading
    rw [List.filter_cons, displayTerms]
    cases hc : c.isZero with
    | true =>
      have hvalue : (c.value == 0) = true := hc
      rw [hvalue, if_pos rfl, ← ih leading]
      rfl
    | false =>
      have hvalue : (c.value == 0) = false := hc
      rw [Bool.not_false, if_pos rfl, displayTerms, hvalue, if_neg Bool.false_ne_true,
        if_neg Bool.false_ne_true, ih false]

theorem display_eq_shownTerms (p : Polynomial Float) :
    p.display = "y =".toList ++ displayTerms true (shownTerms p.coefficients) := by
  rw [display, shownTerms, displayTerms_filter]

/-- **The text of a polynomial is that of its normal form.** -/
theorem display_normal (p : Polynomial Float) : p.normal.display = p.display := by
  rw [display_eq_shownTerms, display_eq_shownTerms, normal, shownTerms_normalCoefficients]

end Polynomial

end PlotSheet
