import PlotSheet.Proofs.Equation.ParametricDisplay
import PlotSheet.Proofs.Equation.PolynomialDisplay

/-!
# Curves are read back from their text

The text of a curve that was read from an equation is an equation itself. A parametric curve is
read back from it without a change. A polynomial is read back in its normal form, which has the same
text; so reading and writing settle after one round.

## Main definitions

* `Curve.numbers`: the numbers in the text of a curve
* `Curve.normal`: the curve that is read back

## Main results

* `exists_of_parse`: the curves that equations are read as
* `parse_display`: the round trip
-/

namespace PlotSheet

namespace Curve

/-- The numbers in the text of a curve. -/
def numbers {α : Type} : Curve α → List α
  | polynomial p => p.numbers
  | parametric p => p.numbers

/-- The curve with its coefficients in normal form. A parametric curve has none. -/
def normal : Curve Float → Curve Float
  | polynomial p => polynomial p.normal
  | parametric p => parametric p

/-- The text of a curve is that of its normal form. -/
theorem display_normal (c : Curve Float) : c.normal.display = c.display := by
  cases c with
  | polynomial p => exact congrArg String.ofList p.display_normal
  | parametric p => rfl

end Curve

namespace Equation

open Text

/-- What is read is a parametric curve with a range that is not empty, or the polynomial of some
terms. -/
theorem exists_of_parse {α : Type} [Scalar α] {most : Nat} {text : String} {c : Curve α}
    (h : parse most text = .ok c) :
    (∃ p, c = .parametric p ∧ ¬ p.stop ≤ p.start ∧ p.step = defaultStep) ∨
      ∃ terms, c = .polynomial (polynomialOf terms) ∧
        largestExponent terms + 1 ≤ most ∧ largestExponent terms + 1 < wordSize := by
  rcases read_of_parse h with ⟨p, hread, rfl⟩ | ⟨p, hread, rfl⟩
  · rcases readPolynomial_cases (α := α) most (withoutBlanks text.toList) with
      ⟨terms, hspells, hlength, hterms⟩ | ⟨e, he, -⟩
    · rw [hterms] at hread
      obtain rfl := Except.ok.inj hread
      exact .inr ⟨terms, rfl, hlength, hspells.largestExponent_lt⟩
    · rw [he] at hread
      cases hread
  · have hspells := readParametric_eq_ok_iff.1 hread
    exact .inl ⟨p, rfl, order_and_step_of_spellsParametric hspells⟩

theorem parse_display_parametric (most : Nat) {p : Parametric Float}
    (h : ∀ x ∈ p.numbers, x.isNaN = false)
    (horder : ¬ p.stop ≤ p.start) (hstep : p.step = defaultStep) :
    parse most (Curve.parametric p).display = .ok (.parametric p) := by
  have hcleaned : withoutBlanks (Curve.parametric p).display.toList = withoutBlanks p.display := by
    rw [Curve.display, String.toList_ofList]
  have hkind : ';' ∈ withoutBlanks p.display ∧ '<' ∈ withoutBlanks p.display := by
    rw [withoutBlanks_display_parametric h]
    simp [parametricParts, List.intercalate_cons_cons]
  rw [← hcleaned] at hkind
  have hspells := spellsParametric_display h horder hstep
  rw [parse_of_parametric most hkind, hcleaned, readParametric_of_spellsParametric hspells]
  rfl

theorem parse_display_polynomial {most : Nat} {p : Polynomial Float}
    (h : ∀ x ∈ p.numbers, x.isNaN = false)
    (hminus : ∀ c ∈ p.coefficients, c.minus = false)
    (hword : p.coefficients.length < wordSize) (hpos : 1 ≤ most)
    (hlength : p.coefficients.length ≤ most) :
    parse most (Curve.polynomial p).display = .ok (.polynomial ⟨normalCoefficients p.coefficients,
      defaultStart, defaultStep, defaultExtent, .never⟩) := by
  have hcleaned : withoutBlanks (Curve.polynomial p).display.toList = withoutBlanks p.display := by
    rw [Curve.display, String.toList_ofList]
  have hkind := not_mem_display h
  rw [← hcleaned] at hkind
  rw [parse_of_not_parametric most fun hboth => hkind hboth.1, hcleaned,
    readPolynomial_display h hminus hword hpos hlength]
  rfl

/-- **Every curve that was read is read back from its text**: a parametric one without a change, a
polynomial in its normal form, which has the same text. -/
theorem parse_display (most : Nat) (text : String) (c : Curve Float) (h : parse most text = .ok c)
    (hnumbers : ∀ x ∈ c.numbers, x.isNaN = false) :
    parse most c.display = .ok c.normal ∧ c.normal.display = c.display := by
  refine ⟨?_, c.display_normal⟩
  rcases exists_of_parse h with ⟨p, rfl, horder, hstep⟩ | ⟨terms, rfl, hlength, hword⟩
  · exact parse_display_parametric most hnumbers horder hstep
  · apply parse_display_polynomial hnumbers
    · intro c hc
      exact minus_eq_false_of_mem_denseCoefficients hc (hnumbers _ (List.mem_map_of_mem hc))
    · rwa [polynomialOf, denseCoefficients, List.length_map, List.length_range]
    · exact Nat.le_of_add_left_le hlength
    · rwa [polynomialOf, denseCoefficients, List.length_map, List.length_range]

/-- Zeros of both signs within a polynomial and at its end, and a curve with an infinity and with
negative zeros. -/
theorem parse_display_zeros :
    (parse 6 "y = 0x^5 - x^3 - 0x^2 + 2.5" = .ok (.polynomial
        ⟨[⟨2.5, false⟩, ⟨0, false⟩, ⟨-0, false⟩, ⟨-1, false⟩, ⟨0, false⟩, ⟨0, false⟩],
          -10, 0.1, 20, .never⟩) ∧
      parse 6 "y = -x^3 + 2.5" = .ok (.polynomial
        ⟨[⟨2.5, false⟩, ⟨0, false⟩, ⟨0, false⟩, ⟨-1, false⟩], -10, 0.1, 20, .never⟩)) ∧
    (parse 6 "x=-inf sin(t);y=1e-3cos(-0t);-0<t<2pi" = .ok (.parametric
        ⟨⟨.sin, -1 / 0, 1⟩, ⟨.cos, 0.001, -0⟩, -0, 6.283185307179586, 0.1⟩) ∧
      parse 6 "x = -infsin(1t); y = 0.001cos(-0t); -0 < t < 6.283185307179586" = .ok (.parametric
        ⟨⟨.sin, -1 / 0, 1⟩, ⟨.cos, 0.001, -0⟩, -0, 6.283185307179586, 0.1⟩)) := by
  refine ⟨⟨by decide +kernel, ?_⟩, by decide +kernel, ?_⟩
  · have hread := (parse_display 6 "y = 0x^5 - x^3 - 0x^2 + 2.5" (.polynomial
      ⟨[⟨2.5, false⟩, ⟨0, false⟩, ⟨-0, false⟩, ⟨-1, false⟩, ⟨0, false⟩, ⟨0, false⟩],
        -10, 0.1, 20, .never⟩) (by decide +kernel) (by decide +kernel)).1
    exact hread
  · have hread := (parse_display 6 "x=-inf sin(t);y=1e-3cos(-0t);-0<t<2pi" (.parametric
      ⟨⟨.sin, -1 / 0, 1⟩, ⟨.cos, 0.001, -0⟩, -0, 6.283185307179586, 0.1⟩)
      (by decide +kernel) (by decide +kernel)).1
    exact hread

end Equation

end PlotSheet
