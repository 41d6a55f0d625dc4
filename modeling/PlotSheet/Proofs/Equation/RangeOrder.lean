import PlotSheet.Proofs.Equation.Parametric
import PlotSheet.Proofs.Number.Undefined

/-!
# The order of range ends

A range is refused if its upper end does not exceed its lower one, which is found out by a
comparison the other way: an end that is undefined compares with nothing, and passes. So the ends
of a curve are in order exactly if both of them are numbers. Which bounds are none can be told from
their texts: a literal may be written as undefined, and a product may be one of zero and an
infinity.

## Main definitions

* `SpellsUndefined`: the text spells an undefined bound

## Main results

* `isNaN_iff_spellsUndefined`: the bounds that are undefined
* `start_lt_stop_iff_of_parse`: the curves whose ends are in order
* `not_forall_start_lt_stop`: not all curves are such
-/

namespace PlotSheet.Equation

open Text Binary

/-! ## Undefined bounds -/

/-- One of two numbers is zero, of either sign, and the other one is infinite. -/
def AreZeroAndInfinity (x y : Float) : Prop :=
  ((x == 0) = true ∧ y.isInf = true) ∨ (x.isInf = true ∧ (y == 0) = true)

/-- The text spells an undefined bound: a literal that is written so, a product with such a factor,
or a product of zero and an infinity. -/
inductive SpellsUndefined : List Char → Prop
  | literal {text : List Char} {l : Literal} :
    Literal.read text = .ok l → l.magnitude = .undefined → SpellsUndefined text
  | factor {left right : List Char} {l r : Literal} :
    Literal.read left = .ok l → Literal.read right = .ok r →
    l.magnitude = .undefined ∨ r.magnitude = .undefined → SpellsUndefined (left ++ '*' :: right)
  | zeroAndInfinity {left right : List Char} {l r : Literal} :
    Literal.read left = .ok l → Literal.read right = .ok r →
    AreZeroAndInfinity l.toFloat r.toFloat → SpellsUndefined (left ++ '*' :: right)

variable {text : List Char}

theorem spellsProduct_unique {α : Type} [Scalar α] {v w : α} (hv : SpellsProduct text v)
    (hw : SpellsProduct text w) : v = w := by
  have hread := readProduct_of_spellsProduct [] [] hv
  rw [readProduct_of_spellsProduct [] [] hw] at hread
  exact (Except.ok.inj hread).symm

theorem isNaN_product_iff {l r : Literal} :
    (l.toFloat * r.toFloat).isNaN = true ↔
      (l.magnitude = .undefined ∨ r.magnitude = .undefined) ∨
        AreZeroAndInfinity l.toFloat r.toFloat := by
  rw [isNaN_mul_iff, isNaN_toFloat_iff, isNaN_toFloat_iff, AreZeroAndInfinity]

/-- A text that spells an undefined bound spells a bound that is undefined. -/
theorem SpellsUndefined.exists_spellsProduct (h : SpellsUndefined text) :
    ∃ v : Float, SpellsProduct text v ∧ v.isNaN = true := by
  cases h with
  | literal hread h => exact ⟨_, .literal hread, (isNaN_toFloat_iff _).2 h⟩
  | factor hl hr h => exact ⟨_, .product hl hr, isNaN_product_iff.2 (.inl h)⟩
  | zeroAndInfinity hl hr h => exact ⟨_, .product hl hr, isNaN_product_iff.2 (.inr h)⟩

/-- A bound is undefined exactly if its text spells an undefined one. -/
theorem isNaN_iff_spellsUndefined {v : Float} (h : SpellsProduct text v) :
    v.isNaN = true ↔ SpellsUndefined text := by
  constructor
  · intro hv
    cases h with
    | literal hread => exact .literal hread ((isNaN_toFloat_iff _).1 hv)
    | product hl hr =>
      rcases isNaN_product_iff.1 hv with h | h
      · exact .factor hl hr h
      · exact .zeroAndInfinity hl hr h
  · intro hundefined
    obtain ⟨w, hw, hnan⟩ := hundefined.exists_spellsProduct
    rwa [spellsProduct_unique h hw]

/-! ## Curves that were read -/

/-- **The order of range ends.** The ends of a curve that is read are the bounds that are written in
its range, and the upper one is not found to be at most the lower one. So they are in order exactly
if neither bound is undefined, and a bound is undefined exactly if its text, with the pis spelt out,
spells an undefined one. -/
theorem start_lt_stop_iff_of_parse {most : Nat} {text : String} {p : Parametric Float}
    (h : parse most text = .ok (.parametric p)) :
    ∃ xPart yPart range lower upper,
      ThreeParts ';' (withoutBlanks text.toList) xPart yPart range ∧
      ThreeParts '<' range lower ['t'] upper ∧
      SpellsBound lower p.start ∧ SpellsBound upper p.stop ∧ ¬ p.stop ≤ p.start ∧
      (p.start.isNaN = true ↔ SpellsUndefined (spellPi lower)) ∧
      (p.stop.isNaN = true ↔ SpellsUndefined (spellPi upper)) ∧
      (p.start < p.stop ↔
        ¬ SpellsUndefined (spellPi lower) ∧ ¬ SpellsUndefined (spellPi upper)) := by
  cases spellsParametric_of_parse h with
  | parts hparts _ _ hrange =>
    cases hrange with
    | bounds hbounds hlower hupper horder =>
      have hstart := isNaN_iff_spellsUndefined hlower
      have hstop := isNaN_iff_spellsUndefined hupper
      refine ⟨_, _, _, _, _, hparts, hbounds, hlower, hupper, horder, hstart, hstop, ?_⟩
      rw [← hstart, ← hstop, Bool.not_eq_true, Bool.not_eq_true]
      exact lt_iff_isNaN_eq_false horder

/-- The product of zero and an infinity is undefined, though its factors are not. -/
theorem start_lt_stop_iff_zero_times_infinity :
    parse 1 "x=cos(t);y=sin(t);0*inf<t<1" = .ok (.parametric
        ⟨⟨.cos, 1, 1⟩, ⟨.sin, 1, 1⟩, 0 * (1 / 0), 1, 0.1⟩ : Curve Float) ∧
      ∃ lower upper, SpellsBound lower (0 * (1 / 0) : Float) ∧ SpellsBound upper (1 : Float) ∧
        SpellsUndefined (spellPi lower) ∧ ¬ SpellsUndefined (spellPi upper) := by
  have hread : parse 1 "x=cos(t);y=sin(t);0*inf<t<1" = .ok (.parametric
      ⟨⟨.cos, 1, 1⟩, ⟨.sin, 1, 1⟩, 0 * (1 / 0), 1, 0.1⟩ : Curve Float) := by decide +kernel
  refine ⟨hread, ?_⟩
  obtain ⟨_, _, _, lower, upper, -, -, hlower, hupper, -, hstart, hstop, -⟩ :=
    start_lt_stop_iff_of_parse hread
  refine ⟨lower, upper, hlower, hupper, hstart.1 (by decide), ?_⟩
  intro hundefined
  exact absurd (hstop.2 hundefined) (by decide)

/-- An upper end that is undefined exceeds nothing, and is accepted. -/
theorem not_forall_start_lt_stop :
    ¬ ∀ (most : Nat) (text : String) (p : Parametric Float),
      parse most text = .ok (.parametric p) → p.start < p.stop := by
  intro hall
  have hread : parse 1 "x=cos(t);y=sin(t);0<t<nan" = .ok (.parametric
      ⟨⟨.cos, 1, 1⟩, ⟨.sin, 1, 1⟩, 0, 0 / 0, 0.1⟩ : Curve Float) := by decide +kernel
  have hnan := (isNaN_eq_false_of_lt (hall 1 _ _ hread)).2
  exact absurd hnan (by decide)

end PlotSheet.Equation
