import PlotSheet.Proofs.Equation.Parametric
import PlotSheet.Proofs.Equation.Pi

/-!
# What blamed spans show

An error names a cause and blames a span. The cause can be seen at the span: a number that is none
is the blamed text itself, a coefficient has its `x` right behind it and an exponent its `x^` right
ahead of it, a coordinate has no call or several. Only where a bound is spelt out before it is read,
the number at fault is a factor of the text that the bound stands for, and the whole bound is blamed.

## Main definitions

* `IsRange`, `IsBound`: where the range of an equation and its two bounds stand
* `Cause.ShowsIn`: what a cause says about a text and its surroundings
* `ParseError.IsShown`: the cause of an error can be seen at its span

## Main results

* `TermFault.isShown`, `CoordinateFault.isShown`, `RangeFault.isShown`: the faults of the parts of an
  equation can be seen
* `PolynomialFault.isShown`, `ParametricFault.isShown`: so can those of equations
* `parse_error_shown`: every error can be seen at its span
-/

namespace PlotSheet.Equation

open PlotSheet.Span Text

/-! ## Places in an equation -/

/-- The text stands where a parametric equation has its range, behind two semicolons. -/
inductive IsRange : (before text after : List Char) → Prop
  | third {source xPart yPart range : List Char} :
    ThreeParts ';' source xPart yPart range →
    IsRange (xPart ++ [';'] ++ yPart ++ [';']) range []

/-- The text stands where a parametric equation has a bound of its range, ahead of `<t<` or
behind it. -/
inductive IsBound : (before text after : List Char) → Prop
  | lower {before range after lower upper : List Char} :
    IsRange before range after → ThreeParts '<' range lower ['t'] upper →
    IsBound before lower ('<' :: ['t'] ++ '<' :: upper ++ after)
  | upper {before range after lower upper : List Char} :
    IsRange before range after → ThreeParts '<' range lower ['t'] upper →
    IsBound (before ++ lower ++ ['<'] ++ ['t'] ++ ['<']) upper after

/-! ## What causes say -/

section ShowsIn

variable (before text after : List Char) (most : Nat)

/-- The form of an equation is missing in the text between `before` and `after`. -/
def FormError.ShowsIn : FormError → Prop
  | .start => before = [] ∧ after = [] ∧ ¬ ['y', '='] <+: text
  | .emptyBody => before = [] ∧ after = [] ∧ text = ['y', '=']
  | .parts => before = [] ∧ after = [] ∧ text.count ';' ≠ 2
  | .xPart => before = [] ∧ [';'] <+: after ∧ ¬ ['x', '='] <+: text
  | .yPart => [';'] <:+ before ∧ [';'] <+: after ∧ ¬ ['y', '='] <+: text
  | .argument => (∃ f, callPattern f <:+ before) ∧ ¬ ['t', ')'] <:+ text

/-- The text between `before` and `after` is a wrong exponent: behind `x^` no numeral, behind `x`
something else than a caret, behind `x` the greatest machine word, or a whole body with too large an
exponent. -/
def ExponentError.ShowsIn : ExponentError → Prop
  | .digits e => Natural.read 10 wordSize text = .error e ∧ ['x', '^'] <:+ before
  | .missingCaret => text ≠ [] ∧ ¬ ['^'] <+: text ∧ ['x'] <:+ before
  | .tooLarge =>
    (∃ digits, text = '^' :: digits ∧ Natural.read 10 wordSize digits = .ok (wordSize - 1) ∧
      ['x'] <:+ before) ∨
    ∃ terms, before = ['y', '='] ∧ after = [] ∧ SpellsPolynomial (before ++ text) terms ∧
      most < largestExponent terms + 1

/-- The text between `before` and `after` is a wrong range, or a part of one. -/
def RangeError.ShowsIn (α : Type) [Scalar α] : RangeError → Prop
  | .form => IsRange before text after ∧ text.count '<' ≠ 2
  | .parameter => ['<'] <:+ before ∧ ['<'] <+: after ∧ text ≠ ['t']
  | .product => IsBound before text after ∧ 2 ≤ (spellPi text).count '*'
  | .order => IsRange before text after ∧ ∃ (lower upper : List Char) (start stop : α),
      ThreeParts '<' text lower ['t'] upper ∧ SpellsBound lower start ∧ SpellsBound upper stop ∧
        stop ≤ start

/-- The text between `before` and `after` shows the cause. A number that is none is the text, or a
factor of the text that a bound with a pi stands for. -/
def Cause.ShowsIn (α : Type) [Scalar α] : Cause → Prop
  | .form e => e.ShowsIn before text after
  | .coefficient e => Literal.read text = .error e ∧ ['x'] <+: after
  | .exponent e => e.ShowsIn before text after most
  | .constant e => Literal.read text = .error e ∧ 'x' ∉ text
  | .range e => e.ShowsIn before text after α
  | .unsupportedFunction => ¬ ∃ f l r, IsOnlyCall text f l r
  | .number e => Literal.read text = .error e ∨
      IsBound before text after ∧ (∃ word ∈ piWords, word <:+: text) ∧
        ∃ factor ∈ (spellPi text).splitOn '*', Literal.read factor = .error e

end ShowsIn

/-- The error blames a part of the source that shows the cause. -/
def ParseError.IsShown (α : Type) [Scalar α] (most : Nat) (e : ParseError) (source : List Char) :
    Prop :=
  ∃ before text after, source = before ++ text ++ after ∧ e.span = between before text after ∧
    e.cause.ShowsIn before text after most α

variable {α : Type} [Scalar α] {most : Nat} {before after text : List Char} {e : ParseError}

/-! ## Polynomial equations -/

theorem TermFault.isShown (h : TermFault before after text e) :
    e.IsShown α most (before ++ text ++ after) := by
  cases h with
  | constant hx h => exact ⟨_, _, _, rfl, rfl, h, hx⟩
  | coefficient hx hunit h => exact ⟨_, _, _, by simp, rfl, h, List.prefix_append ['x'] _⟩
  | missingCaret h hne hcaret =>
    exact ⟨_, _, _, by simp, rfl, hne, hcaret, List.suffix_append _ ['x']⟩
  | digits h hdigits =>
    refine ⟨_, _, _, by simp, rfl, hdigits, ?_⟩
    rw [List.append_assoc _ ['x'] ['^']]
    exact List.suffix_append _ ['x', '^']
  | tooLarge h hdigits =>
    exact ⟨_, _, _, by simp, rfl, .inl ⟨_, rfl, hdigits, List.suffix_append _ ['x']⟩⟩

theorem PolynomialFault.isShown {source : List Char} (h : PolynomialFault most source e) :
    e.IsShown α most source := by
  cases h with
  | start h => exact ⟨[], source, [], by simp, whole_eq_between source, rfl, rfl, h⟩
  | emptyBody => exact ⟨[], ['y', '='], [], rfl, rfl, rfl, rfl, rfl⟩
  | term hsplit _ he =>
    have hshown : e.IsShown α most _ := he.isShown
    rw [← hsplit.flatten_eq]
    simpa using hshown
  | tooLarge h hlength => exact ⟨_, _, _, by simp, rfl, .inr ⟨_, rfl, rfl, h, hlength⟩⟩

/-! ## Coordinates -/

theorem CoordinateFault.isShown (h : CoordinateFault before after text e) :
    e.IsShown α most (before ++ text ++ after) := by
  cases h with
  | unsupported h => exact ⟨_, _, _, rfl, rfl, h⟩
  | argument hcall h =>
    obtain rfl := hcall.text_eq
    exact ⟨_, _, _, by simp, rfl, ⟨_, List.suffix_append ..⟩, h⟩
  | outer hcall hunit h =>
    obtain rfl := hcall.text_eq
    exact ⟨_, _, _, by simp, rfl, .inl h⟩
  | inner hcall houter ht hunit h =>
    obtain rfl := hcall.text_eq
    exact ⟨_, _, _, by simp, rfl, .inl h⟩

/-! ## Ranges -/

/-- A product that is none has two stars, or a factor that is no literal. -/
theorem ProductFault.cause_eq (h : ProductFault before after text e) :
    (e.cause = .range .product ∧ 2 ≤ text.count '*') ∨
      ∃ l, e.cause = .number l ∧ ∃ factor ∈ text.splitOn '*', Literal.read factor = .error l := by
  cases h with
  | literal hstar h =>
    refine .inr ⟨_, rfl, text, ?_, h⟩
    rw [List.splitOn_eq_singleton hstar]
    exact List.mem_singleton_self text
  | left hleft hright h =>
    refine .inr ⟨_, rfl, _, ?_, h⟩
    rw [List.splitOn_append_cons_self_of_not_mem hleft]
    exact List.mem_cons_self
  | right hl hright h =>
    refine .inr ⟨_, rfl, _, ?_, h⟩
    rw [List.splitOn_append_cons_self_of_not_mem (not_mem_of_read_eq_ok hl),
      List.splitOn_eq_singleton hright]
    exact List.mem_cons_of_mem _ (List.mem_singleton_self _)
  | product hcount => exact .inl ⟨rfl, hcount⟩

/-- Without a pi in it, a bound shows its fault as it is written. -/
theorem ProductFault.isShown (h : ProductFault before after text e) (hself : spellPi text = text)
    (hbound : IsBound before text after) : e.IsShown α most (before ++ text ++ after) := by
  cases h with
  | literal _ h => exact ⟨_, _, _, rfl, rfl, .inl h⟩
  | left _ _ h => exact ⟨_, _, _, by simp, rfl, .inl h⟩
  | right _ _ h => exact ⟨_, _, _, by simp, rfl, .inl h⟩
  | product hcount => exact ⟨_, _, _, rfl, rfl, hbound, hself.symm ▸ hcount⟩

theorem BoundFault.isShown (h : BoundFault before after text e)
    (hbound : IsBound before text after) : e.IsShown α most (before ++ text ++ after) := by
  cases h with
  | plain hself h => exact h.isShown hself hbound
  | spelt hself h =>
    refine ⟨_, _, _, rfl, rfl, ?_⟩
    rcases h.cause_eq with ⟨hcause, hcount⟩ | ⟨l, hcause, hfactor⟩
    · rw [hcause]
      exact ⟨hbound, hcount⟩
    · obtain ⟨ahead, word, hword, behind, rfl, -⟩ :=
        (exists_of_spellPiAfter_ne false text).resolve_left hself
      rw [hcause]
      exact .inr ⟨hbound, ⟨word, hword, ahead, behind, by simp⟩, hfactor⟩

theorem RangeFault.isShown (h : RangeFault α before after text e)
    (hrange : IsRange before text after) : e.IsShown α most (before ++ text ++ after) := by
  cases h with
  | form hcount => exact ⟨_, _, _, rfl, rfl, hrange, hcount⟩
  | parameter hparts ht =>
    obtain rfl := hparts.text_eq
    exact ⟨_, _, _, by simp, rfl, List.suffix_append _ ['<'], List.prefix_append ['<'] _, ht⟩
  | lower hparts h =>
    have hshown : e.IsShown α most _ := h.isShown (.lower hrange hparts)
    rw [hparts.text_eq]
    simpa using hshown
  | upper hparts _ h =>
    have hshown : e.IsShown α most _ := h.isShown (.upper hrange hparts)
    rw [hparts.text_eq]
    simpa using hshown
  | order hparts hlower hupper horder =>
    exact ⟨_, _, _, rfl, rfl, hrange, _, _, _, _, hparts, hlower, hupper, horder⟩

/-! ## Parametric equations -/

theorem ParametricFault.isShown {source : List Char} (h : ParametricFault α source e) :
    e.IsShown α most source := by
  cases h with
  | parts hcount => exact ⟨[], source, [], by simp, whole_eq_between source, rfl, rfl, hcount⟩
  | xPart hparts hx =>
    exact ⟨_, _, _, by simp [hparts.text_eq], rfl, rfl, List.prefix_append [';'] _, hx⟩
  | yPart hparts hy =>
    exact ⟨_, _, _, by simp [hparts.text_eq], rfl, List.suffix_append _ [';'],
      List.prefix_append [';'] _, hy⟩
  | x hparts h =>
    have hshown : e.IsShown α most _ := h.isShown
    rw [hparts.text_eq]
    simpa using hshown
  | y hparts _ h =>
    have hshown : e.IsShown α most _ := h.isShown
    rw [hparts.text_eq]
    simpa using hshown
  | range hparts _ _ h =>
    have hshown : e.IsShown α most _ := h.isShown (.third hparts)
    rw [hparts.text_eq]
    simpa using hshown

/-! ## Equations -/

/-- **Blame is faithful.** Every text that is not read has an error, whose span is a part of the
cleaned equation that shows the cause of the error. -/
theorem parse_error_shown (most : Nat) (text : String) {f : Failure}
    (h : parse (α := α) most text = .error f) :
    ∃ e, f = .invalid e ∧ e.IsShown α most (withoutBlanks text.toList) := by
  by_cases hkind : ';' ∈ withoutBlanks text.toList ∧ '<' ∈ withoutBlanks text.toList
  · rw [parse_of_parametric most hkind] at h
    rcases spellsParametric_or_parametricFault α (withoutBlanks text.toList) with
      ⟨p, hp⟩ | ⟨e, he⟩
    · rw [readParametric_of_spellsParametric hp] at h
      cases h
    · rw [readParametric_of_parametricFault he] at h
      exact ⟨e, (Except.error.inj h).symm, he.isShown⟩
  · rw [parse_of_not_parametric most hkind] at h
    rcases spellsPolynomial_or_polynomialFault most (withoutBlanks text.toList) with
      ⟨terms, hspells, hlength⟩ | ⟨e, he⟩
    · rw [readPolynomial_of_spellsPolynomial hspells hlength] at h
      cases h
    · rw [readPolynomial_of_polynomialFault he] at h
      exact ⟨e, (Except.error.inj h).symm, he.isShown⟩

/-- An exponent that is no numeral shows itself, and a bound with a pi is blamed for the number it
stands for. -/
theorem parse_error_shown_numbers :
    (∃ e : ParseError, e = ⟨.exponent (.digits .invalidDigit),
        between "y=2x+3x^".toList ['b'] []⟩ ∧
      parse (α := Float) 4 "y = 2x + 3x^b" = .error (.invalid e) ∧
      e.IsShown Float 4 (withoutBlanks "y = 2x + 3x^b".toList)) ∧
    ∃ e : ParseError, e = ⟨.number .malformed,
        between "x=sin(t);y=cos(t);0<t<".toList "2pie".toList []⟩ ∧
      parse (α := Float) 4 "x = sin(t); y = cos(t); 0 < t < 2pie" = .error (.invalid e) ∧
      e.IsShown Float 4 (withoutBlanks "x = sin(t); y = cos(t); 0 < t < 2pie".toList) := by
  constructor
  · have hread : parse (α := Float) 4 "y = 2x + 3x^b" = .error (.invalid
        ⟨.exponent (.digits .invalidDigit), between "y=2x+3x^".toList ['b'] []⟩) := by
      rfl
    obtain ⟨e, he, hshown⟩ := parse_error_shown 4 _ hread
    obtain rfl := Failure.invalid.inj he
    exact ⟨_, rfl, hread, hshown⟩
  · have hread : parse (α := Float) 4 "x = sin(t); y = cos(t); 0 < t < 2pie" = .error (.invalid
        ⟨.number .malformed, between "x=sin(t);y=cos(t);0<t<".toList "2pie".toList []⟩) := by
      rfl
    obtain ⟨e, he, hshown⟩ := parse_error_shown 4 _ hread
    obtain rfl := Failure.invalid.inj he
    exact ⟨_, rfl, hread, hshown⟩

end PlotSheet.Equation
