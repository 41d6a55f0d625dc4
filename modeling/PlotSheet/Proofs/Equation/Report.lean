import PlotSheet.Equation.Report
import PlotSheet.Proofs.Equation.Blame

/-!
# The lines of a report

The report of an error has the cleaned equation on its first line, carets on the second and the
wording of the cause on the third. An equation holds no white space and a wording has no second
line, so that these lines are all there is to each. The carets, and the spaces ahead of them, are
counted in characters and not in bytes; thus they stand under the characters of the blamed part.

## Main definitions

* `Text.lines`: the lines of a text
* `noteText`: what a report says behind the wording of the cause

## Main results

* `lines_report`: the lines of a report
* `report_points_at_blame`: the carets of a report stand under the blamed part
-/

namespace PlotSheet

namespace Text

/-- The lines of a text, an empty one behind a final line break. -/
def lines (text : String) : List (List Char) :=
  text.toList.splitOn '\n'

end Text

namespace Equation

open PlotSheet.Span Text

/-! ## The lines of a report -/

theorem not_mem_append {a b : String} (ha : '\n' ∉ a.toList) (hb : '\n' ∉ b.toList) :
    '\n' ∉ (a ++ b).toList := by
  rw [String.toList_append, List.mem_append, not_or]
  exact ⟨ha, hb⟩

/-- Every wording is one line. -/
theorem not_mem_message (cause : Cause) : '\n' ∉ cause.message.toList := by
  have hform (e : FormError) : '\n' ∉ e.message.toList := by cases e <;> decide
  have hliteral (e : LiteralError) : '\n' ∉ e.message.toList := by cases e <;> decide
  have hnatural (e : NaturalError) : '\n' ∉ e.message.toList := by cases e <;> decide
  have hrange (e : RangeError) : '\n' ∉ e.message.toList := by cases e <;> decide
  have hexponent (e : ExponentError) : '\n' ∉ e.message.toList := by
    cases e with
    | digits e => exact hnatural e
    | missingCaret => decide
    | tooLarge => decide
  cases cause with
  | form e => exact not_mem_append (by decide) (hform e)
  | coefficient e => exact not_mem_append (by decide) (hliteral e)
  | exponent e => exact not_mem_append (by decide) (hexponent e)
  | constant e => exact not_mem_append (by decide) (hliteral e)
  | range e => exact not_mem_append (by decide) (hrange e)
  | unsupportedFunction => decide
  | number e => exact not_mem_append (by decide) (hliteral e)

/-- What a report says behind the wording of the cause. -/
def noteText (measure : Measure) (text : List Char) (cause : Cause) : String :=
  match note? measure text cause with
  | some note => "note: " ++ note ++ "\n"
  | none => ""

theorem report_between (measure : Measure) (before text after : List Char) (cause : Cause) :
    report measure ⟨cause, between before text after⟩ =
      .ok (String.ofList (before ++ text ++ after ++ '\n' :: List.replicate before.length ' ' ++
        List.replicate (max text.length 1) '^' ++ ['\n']) ++
          ("parse error: " ++ cause.message ++ "\n") ++ noteText measure text cause) := by
  rw [report, text_between, ok_bind, underline_between, ok_bind]
  rfl

/-- The equation, the carets and the wording of the cause are the first three lines of a report. -/
theorem lines_report (measure : Measure) {before text after : List Char}
    (h : '\n' ∉ before ++ text ++ after) (cause : Cause) :
    ∃ shown, report measure ⟨cause, between before text after⟩ = .ok shown ∧
      lines shown = (before ++ text ++ after) ::
        (List.replicate before.length ' ' ++ List.replicate (max text.length 1) '^') ::
        ("parse error: " ++ cause.message).toList :: lines (noteText measure text cause) := by
  have hcarets : '\n' ∉
      List.replicate before.length ' ' ++ List.replicate (max text.length 1) '^' := by
    simp [List.mem_replicate]
  have hmessage := not_mem_append (by decide : '\n' ∉ "parse error: ".toList)
    (not_mem_message cause)
  refine ⟨_, report_between .., ?_⟩
  unfold lines
  rw [← List.splitOn_append_cons_self_of_not_mem hmessage,
    ← List.splitOn_append_cons_self_of_not_mem hcarets,
    ← List.splitOn_append_cons_self_of_not_mem h]
  simp

/-! ## Carets -/

theorem not_mem_withoutBlanks (text : List Char) : '\n' ∉ withoutBlanks text :=
  fun h => absurd (not_isBlank_of_mem_withoutBlanks h) (by decide)

theorem take_drop_middle (before text after : List Char) :
    ((before ++ text ++ after).drop before.length).take text.length = text := by
  rw [List.append_assoc, List.drop_left, List.take_left]

variable {α : Type} [Scalar α]

/-- **Carets point at the blame.** The report of every error has the cleaned equation on its first
line and a row of carets on the second. Their columns are those of the characters of the blamed
part, counted from the start of the equation; an empty part has one caret, at its place. -/
theorem report_points_at_blame (most : Nat) (measure : Measure) (text : String) {f : Failure}
    (h : parse (α := α) most text = .error f) :
    ∃ e, f = .invalid e ∧ ∃ (shown : String) (ahead blamed : List Char) (k m : Nat)
        (more : List (List Char)),
      report measure e = .ok shown ∧
      lines shown = withoutBlanks text.toList ::
        (List.replicate k ' ' ++ List.replicate m '^') :: more ∧
      e.span.before = .ok ahead ∧ k = ahead.length ∧ e.span.text = .ok blamed ∧
      (blamed ≠ [] → k + m ≤ (withoutBlanks text.toList).length ∧
        ((withoutBlanks text.toList).drop k).take m = blamed) ∧
      (blamed = [] → m = 1 ∧ k ≤ (withoutBlanks text.toList).length) := by
  have hwithin := parse_blamesWithin (α := α) most text
  have hline := not_mem_withoutBlanks text.toList
  rw [h] at hwithin
  cases f with
  | fault f => exact hwithin.elim
  | invalid e =>
    obtain ⟨cause, span⟩ := e
    obtain ⟨before, blamed, after, rfl, hsource⟩ : span.IsPartOf _ := hwithin
    rw [hsource] at hline ⊢
    obtain ⟨shown, hshown, hlines⟩ := lines_report measure hline cause
    refine ⟨_, rfl, shown, before, blamed, before.length, max blamed.length 1, _, hshown, hlines,
      before_between .., rfl, text_between .., ?_, ?_⟩
    · intro hblamed
      have hpos := List.length_pos_iff.2 hblamed
      rw [Nat.max_eq_left hpos]
      exact ⟨by simp, take_drop_middle before blamed after⟩
    · rintro rfl
      exact ⟨rfl, by simp⟩

/-- Three letters of two bytes each have three carets, and a missing exponent has one behind the
last character. -/
theorem report_points_at_blame_places :
    (∃ e shown more, parse (α := Float) 1 "x = sin(t); y = cos(t); 0 < t < πππ" =
        .error (.invalid e) ∧ e.span.text = .ok "πππ".toList ∧ report similarity e = .ok shown ∧
      lines shown = "x=sin(t);y=cos(t);0<t<πππ".toList ::
        (List.replicate 22 ' ' ++ List.replicate 3 '^') :: more) ∧
    ∃ e shown more, parse (α := Float) 1 "y = x^" = .error (.invalid e) ∧ e.span.text = .ok [] ∧
      report similarity e = .ok shown ∧
      lines shown = "y=x^".toList :: (List.replicate 4 ' ' ++ List.replicate 1 '^') :: more := by
  constructor
  · have hread : parse (α := Float) 1 "x = sin(t); y = cos(t); 0 < t < πππ" = .error (.invalid
        ⟨.range .product, between "x=sin(t);y=cos(t);0<t<".toList "πππ".toList []⟩) := by
      rfl
    obtain ⟨e, he, shown, ahead, blamed, k, m, more, hshown, hlines, hahead, rfl, hblamed,
      hmark, -⟩ := report_points_at_blame 1 similarity _ hread
    obtain rfl := Failure.invalid.inj he
    rw [before_between, Except.ok.injEq] at hahead
    rw [text_between, Except.ok.injEq] at hblamed
    subst hahead hblamed
    have hclean : withoutBlanks "x = sin(t); y = cos(t); 0 < t < πππ".toList =
      "x=sin(t);y=cos(t);0<t<πππ".toList := by decide
    have hcount : "x=sin(t);y=cos(t);0<t<".toList.length = 22 := by decide
    rw [hclean, hcount] at hlines hmark
    obtain ⟨hle, htake⟩ := hmark (by decide)
    obtain rfl : m = 3 := by
      have hlength := congrArg List.length htake
      rw [List.length_take, List.length_drop] at hlength
      have : "x=sin(t);y=cos(t);0<t<πππ".toList.length = 25 := by decide
      have : "πππ".toList.length = 3 := by decide
      omega
    exact ⟨_, shown, more, hread, text_between .., hshown, hlines⟩
  · have hread : parse (α := Float) 1 "y = x^" = .error (.invalid
        ⟨.exponent (.digits .empty), between "y=x^".toList [] []⟩) := by
      rfl
    obtain ⟨e, he, shown, ahead, blamed, k, m, more, hshown, hlines, hahead, rfl, hblamed, -,
      hempty⟩ := report_points_at_blame 1 similarity _ hread
    obtain rfl := Failure.invalid.inj he
    rw [before_between, Except.ok.injEq] at hahead
    rw [text_between, Except.ok.injEq] at hblamed
    subst hahead hblamed
    have hclean : withoutBlanks "y = x^".toList = "y=x^".toList := by decide
    obtain ⟨rfl, -⟩ := hempty rfl
    rw [hclean] at hlines
    exact ⟨_, shown, more, hread, text_between .., hshown, hlines⟩

end Equation

end PlotSheet
