import PlotSheet.Proofs.Equation.Coordinate
import PlotSheet.Proofs.Equation.Polynomial
import PlotSheet.Proofs.Equation.Range

/-!
# The grammar of parametric equations

A text with a semicolon and a less-than sign is a parametric equation exactly if it is cut by two
semicolons into `x=` and a coordinate, `y=` and a coordinate, and a range. Otherwise the first fault
decides the error, in the order: the number of parts, `x=`, `y=`, the first coordinate, the second
one, the range.

## Main definitions

* `SpellsParametric`: the text is a parametric equation of the given curve
* `ParametricFault`: the first fault of a text that is none, and where it is

## Main results

* `spellsParametric_or_parametricFault`: every text is an equation or has a fault
* `read_of_parse`: what is read is read by one of the two grammars
* `parse_parametric_grammar`: the equations that are read, and the errors of all other texts
-/

namespace PlotSheet.Equation

open Text PlotSheet.Span

variable {α : Type} [Scalar α]

/-- The text is a parametric equation of the given curve. -/
inductive SpellsParametric : List Char → Parametric α → Prop
  | parts {source xText yText range : List Char} {x y : Coordinate α} {start stop : α} :
    ThreeParts ';' source (['x', '='] ++ xText) (['y', '='] ++ yText) range →
    SpellsCoordinate xText x → SpellsCoordinate yText y → SpellsRange range start stop →
    SpellsParametric source ⟨x, y, start, stop, defaultStep⟩

/-- The first fault of a text that is no parametric equation. -/
inductive ParametricFault (α : Type) [Scalar α] : List Char → ParseError → Prop
  | parts {source : List Char} :
    source.count ';' ≠ 2 → ParametricFault α source ⟨.form .parts, whole source⟩
  | xPart {source xPart yPart range : List Char} :
    ThreeParts ';' source xPart yPart range → ¬ ['x', '='] <+: xPart →
    ParametricFault α source ⟨.form .xPart, between [] xPart (';' :: yPart ++ ';' :: range)⟩
  | yPart {source xText yPart range : List Char} :
    ThreeParts ';' source (['x', '='] ++ xText) yPart range → ¬ ['y', '='] <+: yPart →
    ParametricFault α source
      ⟨.form .yPart, between (['x', '='] ++ xText ++ [';']) yPart (';' :: range)⟩
  | x {source xText yText range : List Char} {e : ParseError} :
    ThreeParts ';' source (['x', '='] ++ xText) (['y', '='] ++ yText) range →
    CoordinateFault ['x', '='] (';' :: (['y', '='] ++ yText) ++ ';' :: range) xText e →
    ParametricFault α source e
  | y {source xText yText range : List Char} {x : Coordinate α} {e : ParseError} :
    ThreeParts ';' source (['x', '='] ++ xText) (['y', '='] ++ yText) range →
    SpellsCoordinate xText x →
    CoordinateFault (['x', '='] ++ xText ++ [';'] ++ ['y', '=']) (';' :: range) yText e →
    ParametricFault α source e
  | range {source xText yText range : List Char} {x y : Coordinate α} {e : ParseError} :
    ThreeParts ';' source (['x', '='] ++ xText) (['y', '='] ++ yText) range →
    SpellsCoordinate xText x → SpellsCoordinate yText y →
    RangeFault α (['x', '='] ++ xText ++ [';'] ++ (['y', '='] ++ yText) ++ [';']) [] range e →
    ParametricFault α source e

variable {source : List Char}

/-! ## The parts of an equation -/

theorem readParametric_of_threeParts {xPart yPart range : List Char}
    (h : ThreeParts ';' source xPart yPart range) :
    readParametric (α := α) (.whole source) = (do
      let some xExpression ← (between [] xPart (';' :: yPart ++ ';' :: range)).dropPrefix? ['x', '=']
        | blame (.form .xPart) (between [] xPart (';' :: yPart ++ ';' :: range))
      let some yExpression ← (between (xPart ++ [';']) yPart (';' :: range)).dropPrefix? ['y', '=']
        | blame (.form .yPart) (between (xPart ++ [';']) yPart (';' :: range))
      let x ← readCoordinate xExpression
      let y ← readCoordinate yExpression
      let (start, stop) ← readRange (between (xPart ++ [';'] ++ yPart ++ [';']) range [])
      return ⟨x, y, start, stop, defaultStep⟩) := by
  have hsplit := splitOn_of_threeParts h [] []
  simp only [List.append_nil, List.nil_append] at hsplit
  rw [readParametric, whole_eq_between, hsplit, lift_ok]
  rfl

/-- Behind `x=` and `y=` the coordinates are read, then the range. -/
theorem readParametric_of_prefixes {xText yText range : List Char}
    (h : ThreeParts ';' source (['x', '='] ++ xText) (['y', '='] ++ yText) range) :
    readParametric (α := α) (.whole source) = (do
      let x ← readCoordinate
        (between ['x', '='] xText (';' :: (['y', '='] ++ yText) ++ ';' :: range))
      let y ← readCoordinate
        (between (['x', '='] ++ xText ++ [';'] ++ ['y', '=']) yText (';' :: range))
      let (start, stop) ← readRange
        (between (['x', '='] ++ xText ++ [';'] ++ (['y', '='] ++ yText) ++ [';']) range [])
      return ⟨x, y, start, stop, defaultStep⟩) := by
  rw [readParametric_of_threeParts h, dropPrefix?_between, lift_ok, ok_bind]
  dsimp only
  rw [dropPrefix?_between, lift_ok, ok_bind, List.nil_append]

/-- An equation is read as its curve. -/
theorem readParametric_of_spellsParametric {p : Parametric α} (h : SpellsParametric source p) :
    readParametric (.whole source) = .ok p := by
  cases h with
  | parts hparts hx hy hrange =>
    rw [readParametric_of_prefixes hparts, readCoordinate_of_spellsCoordinate _ _ hx, ok_bind,
      readCoordinate_of_spellsCoordinate _ _ hy, ok_bind, readRange_of_spellsRange _ _ hrange,
      ok_bind]
    rfl

/-- Reading a text that is no equation fails with its first fault. -/
theorem readParametric_of_parametricFault {e : ParseError} (h : ParametricFault α source e) :
    readParametric (α := α) (.whole source) = .error (.invalid e) := by
  cases h with
  | parts hcount =>
    obtain ⟨parts, hparts, hlength⟩ := exists_splitOn_between [] source [] ';'
    rw [readParametric, whole_eq_between, hparts, lift_ok, ok_bind]
    split
    · simp at hlength
      omega
    · rfl
  | xPart hparts hx =>
    rw [readParametric_of_threeParts hparts, dropPrefix?_between_eq_none _ _ hx]
    rfl
  | yPart hparts hy =>
    rw [readParametric_of_threeParts hparts, dropPrefix?_between, lift_ok, ok_bind]
    dsimp only
    rw [dropPrefix?_between_eq_none _ _ hy]
    rfl
  | x hparts h =>
    rw [readParametric_of_prefixes hparts, readCoordinate_of_coordinateFault _ _ h]
    rfl
  | y hparts hx h =>
    rw [readParametric_of_prefixes hparts, readCoordinate_of_spellsCoordinate _ _ hx, ok_bind,
      readCoordinate_of_coordinateFault _ _ h]
    rfl
  | range hparts hx hy h =>
    rw [readParametric_of_prefixes hparts, readCoordinate_of_spellsCoordinate _ _ hx, ok_bind,
      readCoordinate_of_spellsCoordinate _ _ hy, ok_bind, readRange_of_rangeFault _ _ h]
    rfl

/-- Every text is a parametric equation or has a first fault. -/
theorem spellsParametric_or_parametricFault (α : Type) [Scalar α] (source : List Char) :
    (∃ p : Parametric α, SpellsParametric source p) ∨ ∃ e, ParametricFault α source e := by
  by_cases hcount : source.count ';' = 2
  · obtain ⟨xPart, yPart, range, hparts⟩ := exists_threeParts_iff.2 hcount
    by_cases hx : ['x', '='] <+: xPart
    · obtain ⟨xText, rfl⟩ := hx
      by_cases hy : ['y', '='] <+: yPart
      · obtain ⟨yText, rfl⟩ := hy
        rcases spellsCoordinate_or_coordinateFault ['x', '=']
          (';' :: (['y', '='] ++ yText) ++ ';' :: range) α xText with ⟨x, hx⟩ | ⟨e, he⟩
        · rcases spellsCoordinate_or_coordinateFault
            (['x', '='] ++ xText ++ [';'] ++ ['y', '=']) (';' :: range) α yText with
            ⟨y, hy⟩ | ⟨e, he⟩
          · rcases spellsRange_or_rangeFault
              (['x', '='] ++ xText ++ [';'] ++ (['y', '='] ++ yText) ++ [';']) [] α range with
              ⟨start, stop, hrange⟩ | ⟨e, he⟩
            · exact .inl ⟨_, .parts hparts hx hy hrange⟩
            · exact .inr ⟨e, .range hparts hx hy he⟩
          · exact .inr ⟨e, .y hparts hx he⟩
        · exact .inr ⟨e, .x hparts he⟩
      · exact .inr ⟨_, .yPart hparts hy⟩
    · exact .inr ⟨_, .xPart hparts hx⟩
  · exact .inr ⟨_, .parts hcount⟩

/-- Exactly the equations of a curve are read as it. -/
theorem readParametric_eq_ok_iff {p : Parametric α} :
    readParametric (.whole source) = .ok p ↔ SpellsParametric source p := by
  constructor
  · intro h
    rcases spellsParametric_or_parametricFault α source with ⟨q, hq⟩ | ⟨e, he⟩
    · rw [readParametric_of_spellsParametric hq] at h
      exact Except.ok.inj h ▸ hq
    · rw [readParametric_of_parametricFault he] at h
      cases h
  · exact readParametric_of_spellsParametric

/-- The errors are exactly the first faults. -/
theorem readParametric_eq_error_iff {f : Failure} :
    readParametric (α := α) (.whole source) = .error f ↔
      ∃ e, ParametricFault α source e ∧ f = .invalid e := by
  constructor
  · intro h
    rcases spellsParametric_or_parametricFault α source with ⟨q, hq⟩ | ⟨e, he⟩
    · rw [readParametric_of_spellsParametric hq] at h
      cases h
    · rw [readParametric_of_parametricFault he] at h
      exact ⟨e, he, (Except.error.inj h).symm⟩
  · rintro ⟨e, he, rfl⟩
    exact readParametric_of_parametricFault he

/-! ## Reading a text -/

/-- What is read is read by one of the two grammars. -/
theorem read_of_parse {most : Nat} {text : String} {c : Curve α} (h : parse most text = .ok c) :
    (∃ p, readPolynomial most (.whole (withoutBlanks text.toList)) = .ok p ∧ c = .polynomial p) ∨
      ∃ p, readParametric (.whole (withoutBlanks text.toList)) = .ok p ∧ c = .parametric p := by
  by_cases hkind : ';' ∈ withoutBlanks text.toList ∧ '<' ∈ withoutBlanks text.toList
  · rw [parse_of_parametric most hkind] at h
    exact .inr (map_eq_ok_iff.1 h)
  · rw [parse_of_not_parametric most hkind] at h
    exact .inl (map_eq_ok_iff.1 h)

/-- A text that is read as a parametric curve is an equation of it. -/
theorem spellsParametric_of_parse {most : Nat} {text : String} {p : Parametric α}
    (h : parse most text = .ok (.parametric p)) :
    SpellsParametric (withoutBlanks text.toList) p := by
  rcases read_of_parse h with ⟨q, -, hq⟩ | ⟨q, hread, hq⟩
  · cases hq
  · obtain rfl := Curve.parametric.inj hq
    exact readParametric_eq_ok_iff.1 hread

/-- **The grammar of parametric equations.** A text with a semicolon and a less-than sign is read as
a curve exactly if it is a parametric equation of that curve. Every other such text has a first
fault, which is the error. -/
theorem parse_parametric_grammar (most : Nat) (text : String)
    (h : ';' ∈ withoutBlanks text.toList ∧ '<' ∈ withoutBlanks text.toList) :
    (∀ c : Curve α, parse most text = .ok c ↔
      ∃ p, SpellsParametric (withoutBlanks text.toList) p ∧ c = .parametric p) ∧
    (∀ f, parse (α := α) most text = .error f ↔
      ∃ e, ParametricFault α (withoutBlanks text.toList) e ∧ f = .invalid e) := by
  rw [parse_of_parametric most h]
  simp only [← readParametric_eq_ok_iff, ← readParametric_eq_error_iff]
  cases readParametric (α := α) (.whole (withoutBlanks text.toList)) with
  | ok p => simp [Except.map, eq_comm]
  | error f => simp [Except.map]

/-- Whatever starts with `t` is the parameter, and a function that is not known is blamed ahead of
the wrong parameter behind it. -/
theorem parse_cosine_and_secant :
    ((';' ∈ withoutBlanks "x = 2cos(tt); y = -sec(0.5t); 0 < t < 2π".toList ∧
        '<' ∈ withoutBlanks "x = 2cos(tt); y = -sec(0.5t); 0 < t < 2π".toList) ∧
      parse (α := Float) 1 "x = 2cos(tt); y = -sec(0.5t); 0 < t < 2π" = .ok (.parametric
        ⟨⟨.cos, 2, 1⟩, ⟨.sec, -1, 0.5⟩, 0, 2 * 3.141592653589793, 0.1⟩)) ∧
    ((';' ∈ withoutBlanks "x = cos(t); y = 2t; 0 < s < 1".toList ∧
        '<' ∈ withoutBlanks "x = cos(t); y = 2t; 0 < s < 1".toList) ∧
      parse (α := Float) 1 "x = cos(t); y = 2t; 0 < s < 1" = .error (.invalid
        ⟨.unsupportedFunction, between "x=cos(t);y=".toList "2t".toList ";0<s<1".toList⟩)) := by
  refine ⟨⟨by decide, ?_⟩, by decide, ?_⟩
  · have hcos : IsOnlyCall "2cos(tt)".toList .cos ['2'] (['t'] ++ ['t', ')']) :=
      .of_not_mem (a := ['2']) (b := "tt)".toList) .cos (by decide) (by decide)
    have hsec : IsOnlyCall "-sec(0.5t)".toList .sec ['-'] ("0.5".toList ++ ['t', ')']) :=
      .of_not_mem (a := ['-']) (b := "0.5t)".toList) .sec (by decide) (by decide)
    have htwo : Literal.read ['2'] = .ok ⟨false, .decimal 2 0⟩ := by decide
    have hhalf : Literal.read "0.5".toList = .ok ⟨false, .decimal 5 (-1)⟩ := by decide
    have hzero : Literal.read (spellPi ['0']) = .ok ⟨false, .decimal 0 0⟩ := by decide
    have hpi : Literal.read piDigits = .ok ⟨false, .decimal 3141592653589793 (-15)⟩ := by decide
    have hstop : SpellsBound (α := Float) ['2', 'π'] _ := .product htwo hpi
    have hrange : SpellsRange (α := Float) "0<t<2π".toList _ _ :=
      .bounds ⟨rfl, by decide, by decide, by decide⟩ (.literal hzero) hstop (by decide)
    refine ((parse_parametric_grammar 1 _ (by decide)).1 _).2
      ⟨_, .parts ⟨by decide, by decide, by decide, by decide⟩
        (.call hcos (.literal htwo) (.parameter [])) (.call hsec .minus (.factor (.literal hhalf)))
        hrange, ?_⟩
    exact congrArg Curve.parametric (by decide)
  · have hcos : IsOnlyCall "cos(t)".toList .cos [] ([] ++ ['t', ')']) :=
      .of_not_mem (a := []) (b := "t)".toList) .cos (by decide) (by decide)
    have hnone : onlyCall? "2t".toList = none := by decide
    have hfault : CoordinateFault "x=cos(t);y=".toList ";0<s<1".toList "2t".toList _ :=
      .unsupported (onlyCall?_eq_none_iff.1 hnone)
    exact ((parse_parametric_grammar 1 _ (by decide)).2 _).2
      ⟨_, .y ⟨by decide, by decide, by decide, by decide⟩ (.call hcos .nothing (.factor .nothing))
        hfault, rfl⟩

end PlotSheet.Equation
