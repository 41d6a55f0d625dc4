import PlotSheet.Proofs.Equation.Evidence
import PlotSheet.Proofs.Equation.Report
import PlotSheet.Proofs.Text.Similarity

/-!
# The note on a coordinate

A coordinate without exactly one call has a note in its report. The note proposes the function
whose name is most similar to the first word of the coordinate, or it lists all functions. The word
is looked at without regard to the calls that were counted: it may be the name of a function
already, and then this function is proposed, although the fault is that there are several calls. The
note is a remedy exactly if there is no call, if no name is similar to the word, or if the function
that is proposed is not called yet and some word that is called is none of the functions.

## Main definitions

* `suggestion`, `anyOf`: the two kinds of notes
* `Proposes`: the function with the name most similar to the first word
* `IsCalledWord`: the words of a text that a parenthesis follows
* `Remedies`: a note that proposes no function that is called, and lists all functions where every
  called word is one

## Main results

* `callNote_eq_suggestion_iff`, `callNote_eq_anyOf_iff`: when a note is of which kind
* `proposes_of_calledWord_eq`: a function whose name is the first word is proposed
* `report_remedies_iff`: the coordinates whose note is a remedy
-/

namespace PlotSheet

namespace Equation

open PlotSheet.Span Text

/-! ## Notes on coordinates -/

/-- The note that proposes a function. -/
def suggestion (f : TrigFunction) : String :=
  "function '" ++ f.name ++ "' has a similar name"

/-- The note that lists all functions. -/
def anyOf : String :=
  "each coordinate must use exactly one of sin, cos, tan, sec, csc, cot"

/-- The function has the name most similar to the first word in the expression, and it is similar
enough. -/
def Proposes (measure : Measure) (expression : List Char) (f : TrigFunction) : Prop :=
  calledWord expression ≠ [] ∧
    closest? measure (String.ofList (calledWord expression))
        (TrigFunction.all.map TrigFunction.name) =
      some f.name

theorem name_injective {f g : TrigFunction} (h : f.name = g.name) : f = g := by
  revert h
  cases f <;> cases g <;> decide

theorem toLower_name (f : TrigFunction) : f.name.toList.map Char.toLower = f.name.toList := by
  cases f <;> decide

theorem suggestion_injective {f g : TrigFunction} (h : suggestion f = suggestion g) : f = g := by
  revert h
  cases f <;> cases g <;> decide

theorem suggestion_ne_anyOf (f : TrigFunction) : suggestion f ≠ anyOf := by
  cases f <;> decide

theorem Proposes.unique {measure : Measure} {expression : List Char} {f g : TrigFunction}
    (hf : Proposes measure expression f)
    (hg : Proposes measure expression g) : f = g :=
  name_injective (Option.some.inj (hf.2.symm.trans hg.2))

/-- The note proposes a function, or lists all if there is none to be proposed. -/
theorem callNote_cases (measure : Measure) (expression : List Char) :
    (∃ f, Proposes measure expression f ∧ callNote measure expression = suggestion f) ∨
      (∀ f, ¬ Proposes measure expression f) ∧ callNote measure expression = anyOf := by
  have hany : "each coordinate must use exactly one of " ++
      String.intercalate ", " (TrigFunction.all.map TrigFunction.name) = anyOf := by decide
  by_cases hword : calledWord expression = []
  · refine .inr ⟨fun f hf => hf.1 hword, ?_⟩
    rw [callNote, hword, ← hany]
    rfl
  · have hempty : ¬ (calledWord expression).isEmpty = true := by simpa using hword
    rw [callNote, hany]
    simp only [if_neg hempty]
    split
    · next name hname =>
      obtain ⟨f, -, rfl⟩ := List.mem_map.1 (mem_of_closest? hname)
      exact .inl ⟨f, ⟨hword, hname⟩, rfl⟩
    · next hnone =>
      refine .inr ⟨?_, rfl⟩
      rintro f ⟨-, hf⟩
      rw [hnone] at hf
      cases hf

theorem callNote_eq_suggestion_iff {measure : Measure} {expression : List Char} {f : TrigFunction} :
    callNote measure expression = suggestion f ↔ Proposes measure expression f := by
  rcases callNote_cases measure expression with ⟨g, hg, hnote⟩ | ⟨hnone, hnote⟩
  · rw [hnote]
    exact ⟨fun h => suggestion_injective h ▸ hg, fun hf => by rw [hg.unique hf]⟩
  · rw [hnote]
    exact ⟨fun h => absurd h.symm (suggestion_ne_anyOf f), fun hf => absurd hf (hnone f)⟩

theorem callNote_eq_anyOf_iff {measure : Measure} {expression : List Char} :
    callNote measure expression = anyOf ↔ ∀ f, ¬ Proposes measure expression f := by
  rcases callNote_cases measure expression with ⟨g, hg, hnote⟩ | ⟨hnone, hnote⟩
  · rw [hnote]
    exact ⟨fun h => absurd h (suggestion_ne_anyOf g), fun h => absurd hg (h g)⟩
  · exact iff_of_true hnote hnone

/-- The measure tells the names of functions apart: a name is fully alike to itself, and less so to
the name of another function. -/
structure TellsNames (measure : Measure) : Prop where
  self_eq_one (f : TrigFunction) : measure f.name.toList f.name.toList = 1
  lt_one_of_ne {f g : TrigFunction} : f ≠ g → measure f.name.toList g.name.toList < 1

/-- Counting edits tells the names apart. -/
theorem tellsNames_similarity : TellsNames similarity where
  self_eq_one f := by cases f <;> decide +kernel
  lt_one_of_ne {f g} h := by
    revert h
    cases f <;> cases g <;> decide +kernel

namespace TellsNames

variable {measure : Measure}

theorem caselessSimilarity_self (h : TellsNames measure) (f : TrigFunction) :
    caselessSimilarity measure f.name f.name = 1 := by
  rw [caselessSimilarity, toLower_name, h.self_eq_one]

theorem caselessSimilarity_lt (h : TellsNames measure) {f g : TrigFunction} (hne : f ≠ g) :
    caselessSimilarity measure f.name g.name < caselessSimilarity measure f.name f.name := by
  rw [h.caselessSimilarity_self, caselessSimilarity, toLower_name, toLower_name]
  exact h.lt_one_of_ne hne

theorem defined (h : TellsNames measure) (f : TrigFunction) :
    Defined (caselessSimilarity measure f.name) (TrigFunction.all.map TrigFunction.name) := by
  rw [Defined, List.forall_mem_map]
  intro g _
  by_cases hfg : f = g
  · rw [← hfg, h.caselessSimilarity_self]
    decide
  · exact (Binary.isNaN_eq_false_of_lt (h.caselessSimilarity_lt hfg)).1

/-- The name of a function is most similar to itself. -/
theorem closest?_name (h : TellsNames measure) (f : TrigFunction) :
    closest? measure f.name (TrigFunction.all.map TrigFunction.name) = some f.name := by
  obtain ⟨ahead, behind, hall⟩ := List.append_of_mem (TrigFunction.mem_all f)
  have hnodup : TrigFunction.all.Nodup := by decide
  rw [hall, List.nodup_middle, List.nodup_cons, List.mem_append, not_or] at hnodup
  obtain ⟨⟨hahead, hbehind⟩, -⟩ := hnodup
  refine (h.defined f).closest?_eq_some_iff.2
    ⟨⟨ahead.map TrigFunction.name, behind.map TrigFunction.name, by simp [hall], ?_, ?_⟩, ?_⟩
  · rw [List.forall_mem_map]
    exact fun g hg => h.caselessSimilarity_lt fun hfg => hahead (hfg ▸ hg)
  · rw [List.forall_mem_map]
    exact fun g hg => Binary.le_of_lt_number (h.caselessSimilarity_lt fun hfg => hbehind (hfg ▸ hg))
  · rw [h.caselessSimilarity_self]
    decide

/-- A function whose name is the first word is proposed, whether it is called or not. -/
theorem proposes_of_calledWord_eq (h : TellsNames measure) {expression : List Char}
    {f : TrigFunction} (hword : calledWord expression = f.name.toList) :
    Proposes measure expression f := by
  rw [Proposes, hword, String.ofList_toList]
  exact ⟨List.ne_nil_of_length_pos (by rw [length_name]; decide), h.closest?_name f⟩

end TellsNames

theorem not_mem_callNote (measure : Measure) (expression : List Char) :
    '\n' ∉ (callNote measure expression).toList := by
  rcases callNote_cases measure expression with ⟨f, -, hnote⟩ | ⟨-, hnote⟩
  · rw [hnote]
    cases f <;> decide
  · rw [hnote]
    decide

theorem lines_noteText_unsupportedFunction (measure : Measure) (expression : List Char) :
    lines (noteText measure expression .unsupportedFunction) =
      [("note: " ++ callNote measure expression).toList, []] := by
  have hnote := not_mem_append (by decide : '\n' ∉ "note: ".toList)
    (not_mem_callNote measure expression)
  have htext : (noteText measure expression .unsupportedFunction).toList =
      ("note: " ++ callNote measure expression).toList ++ '\n' :: [] := by
    rw [noteText, note?, String.toList_append]
    rfl
  rw [lines, htext, List.splitOn_append_cons_self_of_not_mem hnote]
  rfl

/-! ## Remedies -/

/-- The word is a run of letters right ahead of a parenthesis, with no letter ahead of it. -/
def IsCalledWord (expression word : List Char) : Prop :=
  word ≠ [] ∧ (∀ c ∈ word, c.isAlpha = true) ∧
    ∃ l r, expression = l ++ (word ++ '(' :: r) ∧ ∀ c ∈ l.getLast?, c.isAlpha = false

/-- The note helps: it proposes no function that is called already, and where there are several
calls and every called word is a function, it lists the functions. -/
structure Remedies (expression : List Char) (note : String) : Prop where
  not_called : ∀ f, note = suggestion f → ¬ callPattern f <:+: expression
  lists_all : 2 ≤ callCount expression →
    (∀ word, IsCalledWord expression word → ∃ f : TrigFunction, word = f.name.toList) →
    note = anyOf

variable {measure : Measure} {expression : List Char}

theorem callCount_eq_zero_iff_not_infix :
    callCount expression = 0 ↔ ∀ f, ¬ callPattern f <:+: expression := by
  rw [callCount_eq_zero_iff]
  constructor
  · rintro h f ⟨l, r, htext⟩
    exact h f l r htext.symm
  · intro h f l r htext
    exact h f ⟨l, r, htext.symm⟩

/-- The note on a coordinate helps if there is no call, if it lists all functions, or if it proposes
one that is not called and some called word is none. -/
theorem remedies_callNote_iff (hcount : callCount expression ≠ 1) :
    Remedies expression (callNote measure expression) ↔
      callCount expression = 0 ∨ (∀ f, ¬ Proposes measure expression f) ∨
        ∃ f, Proposes measure expression f ∧ ¬ callPattern f <:+: expression ∧
          ∃ word, IsCalledWord expression word ∧ ∀ g : TrigFunction, word ≠ g.name.toList := by
  constructor
  · intro h
    by_cases hzero : callCount expression = 0
    · exact .inl hzero
    rcases callNote_cases measure expression with ⟨f, hf, hnote⟩ | ⟨hnone, -⟩
    · refine .inr (.inr ⟨f, hf, h.not_called f hnote, ?_⟩)
      by_contra hwords
      have hall (word) (hword : IsCalledWord expression word) :
          ∃ g : TrigFunction, word = g.name.toList := by
        by_contra hg
        exact hwords ⟨word, hword, not_exists.1 hg⟩
      exact suggestion_ne_anyOf f (hnote ▸ h.lists_all (by omega) hall)
    · exact .inr (.inl hnone)
  · rintro (hzero | hnone | ⟨f, hf, hcalled, word, hword, hnot⟩)
    · refine ⟨fun f _ => callCount_eq_zero_iff_not_infix.1 hzero f, fun htwo => ?_⟩
      omega
    · exact ⟨fun f hnote => absurd (callNote_eq_suggestion_iff.1 hnote) (hnone f),
        fun _ _ => callNote_eq_anyOf_iff.2 hnone⟩
    · refine ⟨fun g hnote => ?_, fun _ hall => ?_⟩
      · rwa [(callNote_eq_suggestion_iff.1 hnote).unique hf]
      · obtain ⟨g, hg⟩ := hall word hword
        exact absurd hg (hnot g)

/-! ## Coordinates without exactly one call -/

theorem PolynomialFault.cause_ne {most : Nat} {source : List Char} {e : ParseError}
    (h : PolynomialFault most source e) : e.cause ≠ .unsupportedFunction := by
  cases h with
  | start => exact nofun
  | emptyBody => exact nofun
  | tooLarge => exact nofun
  | term _ _ he => cases he <;> exact nofun

variable {α : Type} [Scalar α]

/-- A coordinate is blamed as a whole if there is not exactly one call in it. -/
theorem exists_expression_of_parse {most : Nat} {text : String} {e : ParseError}
    (h : parse (α := α) most text = .error (.invalid e)) (hcause : e.cause = .unsupportedFunction) :
    ∃ before expression after, withoutBlanks text.toList = before ++ expression ++ after ∧
      e.span = between before expression after ∧ callCount expression ≠ 1 := by
  have hfault : ParametricFault α (withoutBlanks text.toList) e := by
    by_cases hkind : ';' ∈ withoutBlanks text.toList ∧ '<' ∈ withoutBlanks text.toList
    · rw [parse_of_parametric most hkind] at h
      rcases spellsParametric_or_parametricFault α (withoutBlanks text.toList) with
        ⟨p, hp⟩ | ⟨e', he'⟩
      · rw [readParametric_of_spellsParametric hp] at h
        cases h
      · rw [readParametric_of_parametricFault he'] at h
        obtain rfl := Failure.invalid.inj (Except.error.inj h)
        exact he'
    · rw [parse_of_not_parametric most hkind] at h
      rcases spellsPolynomial_or_polynomialFault most (withoutBlanks text.toList) with
        ⟨terms, hspells, hlength⟩ | ⟨e', he'⟩
      · rw [readPolynomial_of_spellsPolynomial hspells hlength] at h
        cases h
      · rw [readPolynomial_of_polynomialFault he'] at h
        obtain rfl := Failure.invalid.inj (Except.error.inj h)
        exact absurd hcause he'.cause_ne
  have hshown : e.IsShown α most _ := hfault.isShown
  obtain ⟨before, expression, after, hsource, hspan, hshows⟩ := hshown
  rw [hcause] at hshows
  exact ⟨before, expression, after, hsource, hspan, mt callCount_eq_one_iff.1 hshows⟩

/-- **Remedies.** A coordinate that is rejected has no call or several calls, and its report has
four lines, the last of which is the note. The note proposes the function whose name is most similar
to the first word, and lists all functions if there is none. It is a remedy exactly if there is no
call, if no function is proposed, or if the one that is proposed is not called yet and some called
word is no function; where the first word is a function already, this one is proposed. -/
theorem report_remedies_iff (most : Nat) {measure : Measure} (hmeasure : TellsNames measure)
    (text : String) {e : ParseError} (h : parse (α := α) most text = .error (.invalid e))
    (hcause : e.cause = .unsupportedFunction) :
    ∃ (expression marked : List Char) (shown note : String),
      e.span.text = .ok expression ∧ report measure e = .ok shown ∧
      lines shown = [withoutBlanks text.toList, marked,
        "parse error: unsupported function".toList, ("note: " ++ note).toList, []] ∧
      callCount expression ≠ 1 ∧
      (∀ f, note = suggestion f ↔ Proposes measure expression f) ∧
      (note = anyOf ↔ ∀ f, ¬ Proposes measure expression f) ∧
      (∀ f, calledWord expression = f.name.toList → note = suggestion f) ∧
      (Remedies expression note ↔
        callCount expression = 0 ∨ (∀ f, ¬ Proposes measure expression f) ∨
          ∃ f, Proposes measure expression f ∧ ¬ callPattern f <:+: expression ∧
            ∃ word, IsCalledWord expression word ∧ ∀ g : TrigFunction, word ≠ g.name.toList) := by
  obtain ⟨before, expression, after, hsource, hspan, hcount⟩ := exists_expression_of_parse h hcause
  obtain ⟨cause, span⟩ := e
  subst hcause hspan
  have hline := not_mem_withoutBlanks text.toList
  rw [hsource] at hline ⊢
  obtain ⟨shown, hshown, hlines⟩ := lines_report measure hline .unsupportedFunction
  rw [lines_noteText_unsupportedFunction] at hlines
  exact ⟨expression, _, shown, callNote measure expression, text_between .., hshown, hlines, hcount,
    fun f => callNote_eq_suggestion_iff, callNote_eq_anyOf_iff,
    fun f hf => callNote_eq_suggestion_iff.2 (hmeasure.proposes_of_calledWord_eq hf),
    remedies_callNote_iff hcount⟩

/-- For `foo` the function `cos` is proposed, which is not called in the coordinate. -/
theorem report_remedies_iff_foo : ∃ (e : ParseError) (expression : List Char)
    (shown note : String),
    TellsNames similarity ∧
      parse (α := Float) 1 "x = foo(sin(sin(t))); y = cos(t); 0 < t < 1" = .error (.invalid e) ∧
      e.cause = .unsupportedFunction ∧ e.span.text = .ok expression ∧
      report similarity e = .ok shown ∧
      (lines shown)[3]? = some ("note: " ++ note).toList ∧ note = suggestion .cos ∧
      Remedies expression note := by
  have hread : parse (α := Float) 1 "x = foo(sin(sin(t))); y = cos(t); 0 < t < 1" =
      .error (.invalid ⟨.unsupportedFunction,
        between "x=".toList "foo(sin(sin(t)))".toList ";y=cos(t);0<t<1".toList⟩) := by
    rfl
  obtain ⟨expression, marked, shown, note, hexpression, hshown, hlines, -, hsuggestion, -, -,
    hremedies⟩ := report_remedies_iff 1 tellsNames_similarity _ hread rfl
  have htext := hexpression
  rw [text_between, Except.ok.injEq] at htext
  subst htext
  have hcos : Proposes similarity "foo(sin(sin(t)))".toList .cos := ⟨by decide, by decide +kernel⟩
  have hcalled : ¬ callPattern .cos <:+: "foo(sin(sin(t)))".toList := fun h =>
    absurd (h.subset (by decide : 'c' ∈ callPattern .cos)) (by decide)
  have hfoo : IsCalledWord "foo(sin(sin(t)))".toList "foo".toList :=
    ⟨by decide, List.all_eq_true.1 (by decide), [], "sin(sin(t)))".toList, by decide, by simp⟩
  refine ⟨_, _, shown, note, tellsNames_similarity, hread, rfl, hexpression, hshown,
    by rw [hlines]; rfl,
    (hsuggestion .cos).2 hcos, hremedies.2 (.inr (.inr ⟨.cos, hcos, hcalled, _, hfoo, ?_⟩))⟩
  intro g
  cases g <;> decide

/-- A note is not always a remedy: where `sin` is called twice, `sin` is proposed. -/
theorem not_forall_remedies : ¬ ∀ (most : Nat) (measure : Measure), TellsNames measure →
    ∀ (text : String) (e : ParseError) (expression : List Char) (shown note : String),
      parse (α := Float) most text = .error (.invalid e) → e.cause = .unsupportedFunction →
      e.span.text = .ok expression → report measure e = .ok shown →
      (lines shown)[3]? = some ("note: " ++ note).toList → Remedies expression note := by
  intro hall
  have hread : parse (α := Float) 1 "x=sin(sin(t));y=cos(t);0<t<1" =
      .error (.invalid ⟨.unsupportedFunction,
        between "x=".toList "sin(sin(t))".toList ";y=cos(t);0<t<1".toList⟩) := by
    rfl
  have hline : '\n' ∉ "x=".toList ++ "sin(sin(t))".toList ++ ";y=cos(t);0<t<1".toList := by decide
  obtain ⟨shown, hshown, hlines⟩ := lines_report similarity hline .unsupportedFunction
  have hnote : callNote similarity "sin(sin(t))".toList = suggestion .sin :=
    callNote_eq_suggestion_iff.2 (tellsNames_similarity.proposes_of_calledWord_eq (by decide))
  rw [lines_noteText_unsupportedFunction, hnote] at hlines
  have hremedies := hall 1 _ tellsNames_similarity _ _ _ shown (suggestion .sin) hread rfl
    (text_between ..) hshown
    (by rw [hlines]; rfl)
  exact hremedies.not_called .sin rfl (by decide)

end Equation

end PlotSheet
