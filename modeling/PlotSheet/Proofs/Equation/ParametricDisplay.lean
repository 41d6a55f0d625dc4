import PlotSheet.Curve.Display
import PlotSheet.Proofs.Equation.Parametric
import PlotSheet.Proofs.Equation.Pi
import PlotSheet.Proofs.Number.ReadBack

/-!
# The text of a parametric curve

A parametric curve that was read from an equation is read back from its text without a change. The
text of a number has none of the characters that the equation is cut at, and no letter that a
bound is spelt out for; so the parts of the text are the parts that it was put together from, and it
is an equation of the curve.

## Main definitions

* `Parametric.numbers`: the numbers in the text of a parametric curve

## Main results

* `spellsCoordinate_display`, `spellsRange_write`: the parts of a text
* `spellsParametric_display`: the whole text
* `order_and_step_of_spellsParametric`: what an equation says of the range of a curve
-/

namespace PlotSheet

/-- The numbers in the text of a parametric curve. -/
def Parametric.numbers {α : Type} (p : Parametric α) : List α :=
  [p.x.outer, p.x.inner, p.y.outer, p.y.inner, p.start, p.stop]

namespace Equation

open Text Layout

/-! ## Numbers in a text -/

section Numbers

variable {x : Float}

theorem not_mem_write (h : x.isNaN = false) {c : Char} (hc : c ∉ "0123456789-.inf".toList) :
    c ∉ plain.write x := fun hmem => hc (mem_write h c hmem)

@[simp] theorem withoutBlanks_write (h : x.isNaN = false) :
    withoutBlanks (plain.write x) = plain.write x := by
  have hblank : ∀ c ∈ "0123456789-.inf".toList, isBlank c = false :=
    List.all_iff_forall_prop.1 (by decide)
  exact withoutBlanks_eq_self fun c hc => hblank c (mem_write h c hc)

end Numbers

/-! ## Coordinates -/

theorem display_eq_call (c : Coordinate Float) :
    c.display = plain.write c.outer ++ callPattern c.function ++
      (plain.write c.inner ++ ['t', ')']) := by
  simp [Coordinate.display, callPattern]

/-- The text of a coordinate spells it. -/
theorem spellsCoordinate_display (c : Coordinate Float) (houter : c.outer.isNaN = false)
    (hinner : c.inner.isNaN = false) : SpellsCoordinate c.display c := by
  have hargument : '(' ∉ plain.write c.inner ++ ['t', ')'] := by
    rw [List.mem_append]
    rintro (hmem | hmem)
    · exact not_mem_write hinner (by decide) hmem
    · exact absurd hmem (by decide)
  have hcall := IsOnlyCall.of_not_mem c.function (not_mem_write houter (by decide)) hargument
  obtain ⟨outer, hreadOuter, hvalueOuter, -⟩ := read_write c.outer houter
  obtain ⟨inner, hreadInner, hvalueInner, -⟩ := read_write c.inner hinner
  have hspells : SpellsCoordinate (α := Float) c.display
      ⟨c.function, outer.toFloat, inner.toFloat⟩ := by
    rw [display_eq_call]
    exact .call hcall (.literal hreadOuter) (.factor (.literal hreadInner))
  rwa [hvalueOuter, hvalueInner] at hspells

/-! ## Ranges -/

/-- The text of a number is a bound: there is no pi in it to spell out. -/
theorem spellsBound_write {x : Float} (h : x.isNaN = false) : SpellsBound (plain.write x) x := by
  have hspell : spellPi (plain.write x) = plain.write x :=
    spellPiAfter_eq_self (not_mem_write h (by decide)) (not_mem_write h (by decide)) false
  obtain ⟨l, hread, rfl, -⟩ := read_write x h
  unfold SpellsBound
  rw [hspell]
  exact .literal hread

/-- The two ends of a range spell it. -/
theorem spellsRange_write {start stop : Float} (hstart : start.isNaN = false)
    (hstop : stop.isNaN = false) (horder : ¬ stop ≤ start) :
    SpellsRange (plain.write start ++ "<t<".toList ++ plain.write stop) start stop := by
  have hparts : ThreeParts '<' (plain.write start ++ "<t<".toList ++ plain.write stop)
      (plain.write start) ['t'] (plain.write stop) :=
    ⟨by simp, not_mem_write hstart (by decide), by decide, not_mem_write hstop (by decide)⟩
  exact .bounds hparts (spellsBound_write hstart) (spellsBound_write hstop) horder

/-! ## Equations -/

theorem mem_display_coordinate {c : Coordinate Float} (houter : c.outer.isNaN = false)
    (hinner : c.inner.isNaN = false) :
    ∀ d ∈ c.display, d ∈ "0123456789-.infsectano()".toList := by
  have hnumber : ∀ d ∈ "0123456789-.inf".toList, d ∈ "0123456789-.infsectano()".toList :=
    List.all_iff_forall_prop.1 (by decide)
  have hname : ∀ d ∈ callPattern c.function, d ∈ "0123456789-.infsectano()".toList := by
    cases c.function <;> exact List.all_iff_forall_prop.1 (by decide)
  have hend : ∀ d ∈ ['t', ')'], d ∈ "0123456789-.infsectano()".toList :=
    List.all_iff_forall_prop.1 (by decide)
  intro d hd
  rw [display_eq_call, List.mem_append, List.mem_append, List.mem_append] at hd
  rcases hd with (hd | hd) | hd | hd
  · exact hnumber d (mem_write houter d hd)
  · exact hname d hd
  · exact hnumber d (mem_write hinner d hd)
  · exact hend d hd

theorem withoutBlanks_coordinate {c : Coordinate Float} (houter : c.outer.isNaN = false)
    (hinner : c.inner.isNaN = false) : withoutBlanks c.display = c.display := by
  have hblank : ∀ d ∈ "0123456789-.infsectano()".toList, isBlank d = false :=
    List.all_iff_forall_prop.1 (by decide)
  exact withoutBlanks_eq_self fun d hd => hblank d (mem_display_coordinate houter hinner d hd)

/-- The parts of the equation of a curve. -/
def parametricParts (p : Parametric Float) : List (List Char) :=
  [['x', '='] ++ p.x.display, ['y', '='] ++ p.y.display,
    plain.write p.start ++ "<t<".toList ++ plain.write p.stop]

variable {p : Parametric Float}

theorem forall_mem_numbers_iff :
    (∀ x ∈ p.numbers, x.isNaN = false) ↔
      p.x.outer.isNaN = false ∧ p.x.inner.isNaN = false ∧ p.y.outer.isNaN = false ∧
        p.y.inner.isNaN = false ∧ p.start.isNaN = false ∧ p.stop.isNaN = false := by
  simp only [Parametric.numbers, List.forall_mem_cons, List.not_mem_nil, false_implies,
    implies_true, and_true]

theorem withoutBlanks_display_parametric (h : ∀ x ∈ p.numbers, x.isNaN = false) :
    withoutBlanks p.display = [';'].intercalate (parametricParts p) := by
  obtain ⟨hxo, hxi, hyo, hyi, hstart, hstop⟩ := forall_mem_numbers_iff.1 h
  have hx : withoutBlanks "x = ".toList = ['x', '='] := by decide
  have hy : withoutBlanks "; y = ".toList = [';', 'y', '='] := by decide
  have hsemicolon : withoutBlanks "; ".toList = [';'] := by decide
  have hless : withoutBlanks " < t < ".toList = "<t<".toList := by decide
  unfold Parametric.display
  simp only [withoutBlanks_append]
  rw [hx, hy, hsemicolon, hless, withoutBlanks_coordinate hxo hxi, withoutBlanks_coordinate hyo hyi,
    withoutBlanks_write hstart, withoutBlanks_write hstop]
  simp [parametricParts, List.intercalate_cons_cons]

/-- No part of an equation holds the semicolon that parts are joined with. -/
theorem not_mem_parametricParts (h : ∀ x ∈ p.numbers, x.isNaN = false) :
    ∀ part ∈ parametricParts p, ';' ∉ part := by
  obtain ⟨hxo, hxi, hyo, hyi, hstart, hstop⟩ := forall_mem_numbers_iff.1 h
  have hcoordinate : ';' ∉ "0123456789-.infsectano()".toList := by decide
  have hx : ';' ∉ p.x.display := fun hmem =>
    hcoordinate (mem_display_coordinate hxo hxi _ hmem)
  have hy : ';' ∉ p.y.display := fun hmem =>
    hcoordinate (mem_display_coordinate hyo hyi _ hmem)
  have hrange := And.intro (not_mem_write hstart (c := ';') (by decide))
    (not_mem_write hstop (c := ';') (by decide))
  simpa [parametricParts] using ⟨hx, hy, hrange⟩

/-- **The text of a parametric curve is an equation of it**, if its range is not empty and it has
the step of all equations. -/
theorem spellsParametric_display (h : ∀ x ∈ p.numbers, x.isNaN = false)
    (horder : ¬ p.stop ≤ p.start) (hstep : p.step = defaultStep) :
    SpellsParametric (withoutBlanks p.display) p := by
  have hmem := not_mem_parametricParts h
  have hparts : ThreeParts ';' (withoutBlanks p.display) (['x', '='] ++ p.x.display)
      (['y', '='] ++ p.y.display) (plain.write p.start ++ "<t<".toList ++ plain.write p.stop) := by
    refine ⟨?_, hmem _ ?_, hmem _ ?_, hmem _ ?_⟩
    · rw [withoutBlanks_display_parametric h]
      simp [parametricParts, List.intercalate_cons_cons]
    all_goals simp [parametricParts]
  obtain ⟨hxo, hxi, hyo, hyi, hstart, hstop⟩ := forall_mem_numbers_iff.1 h
  have hspells := SpellsParametric.parts hparts (spellsCoordinate_display p.x hxo hxi)
    (spellsCoordinate_display p.y hyo hyi) (spellsRange_write hstart hstop horder)
  rwa [← hstep] at hspells

/-- The curve of an equation has a range that is not empty, and the step of all equations. -/
theorem order_and_step_of_spellsParametric {α : Type} [Scalar α] {source : List Char}
    {p : Parametric α} (h : SpellsParametric source p) :
    ¬ p.stop ≤ p.start ∧ p.step = defaultStep := by
  cases h with
  | parts hparts hx hy hrange =>
    cases hrange with
    | bounds hcut hlower hupper horder => exact ⟨horder, rfl⟩

end Equation

end PlotSheet
