import PlotSheet.Proofs.Session.Window

/-!
# What commands ask of the sheet

The commands that change the sheet ask for all they need before they change anything. Answers that
are missing, blank or unreadable, and an index of no equation, request nothing, and then the state
that the command leaves behind is the old one. Otherwise the sheet changes as the answers request,
and the command is carried out to its end. The commands that show, list or plot request nothing.

## Main definitions

* `requested?`: the change that the answers to the prompts of a command request
* `Grants`: a dialogue makes the change that is requested, or none
* `State.ChangesBy`: one change of the sheet, and of nothing else

## Main results

* `addEquation_grants`, `editEquation_grants`, …: what each command grants
* `perform_grants`, `run_turn`: the commands, and the turn of a command
* `turn_changes_as_requested`: a turn makes the requested change, or leaves the state alone
-/

namespace PlotSheet

namespace Session

open Dialogue

/-! ## Requests -/

/-- The value that an answer gives, if there is one that is not blank and can be read. -/
def given? {α : Type} (read : String → Except String α) : Except InputError String → Option α
  | .ok answer => if answer.isEmpty then none else (read answer).toOption
  | .error _ => none

/-- The index that an answer gives, if there is an equation with it. -/
def givenIndex? (s : Sheet) (answer : Except InputError String) : Option Nat :=
  (given? (readNatural wordSize) answer).filter (· < s.size)

theorem givenIndex?_bind {α : Type} (s : Sheet) (answer : Except InputError String)
    (f : Nat → Option α) :
    (givenIndex? s answer).bind f =
      (given? (readNatural wordSize) answer).bind fun i => if i < s.size then f i else none := by
  rw [givenIndex?]
  cases given? (readNatural wordSize) answer with
  | none => rfl
  | some i => by_cases hi : i < s.size <;> simp [Option.filter, hi]

/-- The change of the sheet that a command requests with the answers to its prompts. -/
def requested? (s : Sheet) : Command → List (Except InputError String) → Option Change
  | .add, text :: _ => do return .add (← given? .ok text)
  | .edit, index :: text :: _ => do return .edit (← givenIndex? s index) (← given? .ok text)
  | .remove, index :: _ => do return .remove (← givenIndex? s index)
  | .toggle, index :: _ => do return .toggle (← givenIndex? s index)
  | .color, index :: color :: _ => do
    return .recolor (← givenIndex? s index) (← given? readColor color)
  | _, _ => none

/-- The change of the sheet that a line requests as a command, with the lines behind it as
answers. -/
def requestOf? (s : Sheet) (line : String) (rest : List UInt8) : Option Change := do
  requested? s (← commandOf? line) (answers 2 rest)

/-! ## What dialogues grant -/

variable {p : Platform} {s : State}

/-- A dialogue from `s` came to its end with the requested change, or changed nothing if there is
none. -/
def Met {α : Type} (p : Platform) (s : State) (result : α) (change? : Option Change)
    (ended : Outcome α × State × World) : Prop :=
  match change? with
  | some c => ended.1 = .done result ∧
      ∃ sheet, s.sheet.change? p.mostCoefficients c = some sheet ∧
        ended.2.1 = { s with sheet := sheet }
  | none => ended.2.1 = s

/-- What a dialogue from `s` leads to is what the input requests. -/
def Grants {α : Type} (p : Platform) (s : State) (d : Dialogue State α) (result : α)
    (change? : List UInt8 → Option Change) : Prop :=
  ∀ disk w, Met p s result (change? w.console.input) (d.run disk s w)

section Dialogues

variable {α : Type} {result : α}

theorem grants_pure (a : α) : Grants p s (pure a) result fun _ => none :=
  fun _ _ => rfl

/-- What sets no other state requests nothing. -/
theorem Grants.of_yields {d : Dialogue State α}
    (h : d.Yields ⟨fun s' => s' = s, True⟩ fun _ => True) : Grants p s d result fun _ => none :=
  fun disk w => (h.run disk (show s = s from rfl) w).state

theorem Grants.print {d : Dialogue State α} {change? : List UInt8 → Option Change}
    (h : Grants p s d result change?) (text : String) :
    Grants p s (Dialogue.print text >>= fun _ => d) result change? :=
  fun disk w => h disk (w.told text)

/-- A command is followed by a text. -/
theorem Grants.print_after {d : Dialogue State Unit} {change? : List UInt8 → Option Change}
    (h : Grants p s d () change?) (text : String) (a : α) :
    Grants p s (d >>= fun _ => .say text (pure a)) a change? := by
  intro disk w
  have hmet := h disk w
  rw [run_bind]
  generalize d.run disk s w = ended at hmet
  cases hchange : change? w.console.input with
  | none =>
    rw [hchange] at hmet
    rcases ended with ⟨o | e | - | f, s', w'⟩ <;> exact hmet
  | some c =>
    rw [hchange] at hmet
    obtain ⟨hdone, hsheet⟩ := hmet
    rcases ended with ⟨o, s', w'⟩
    obtain rfl := hdone
    exact ⟨rfl, hsheet⟩

theorem grants_become {c : Change} {sheet : Sheet}
    (hc : s.sheet.change? p.mostCoefficients c = some sheet) :
    Grants p s (become { s with sheet := sheet }) () fun _ => some c :=
  fun _ _ => ⟨rfl, sheet, hc, rfl⟩

theorem grants_become_print {c : Change} {sheet : Sheet}
    (hc : s.sheet.change? p.mostCoefficients c = some sheet) (text : String) :
    Grants p s (become { s with sheet := sheet } >>= fun _ => Dialogue.print text) ()
      fun _ => some c :=
  fun _ _ => ⟨rfl, sheet, hc, rfl⟩

end Dialogues

section Questions

variable {α : Type} {text : String} {read : String → Except String α}

/-- A prompt goes on with an answer that is not blank, or leads to no change. -/
theorem grants_prompt {k : String → Dialogue State Unit}
    {change? : String → List UInt8 → Option Change}
    (hblank : ∀ answer, answer.isEmpty = true → k answer = pure ())
    (hanswer : ∀ answer, answer.isEmpty = false → Grants p s (k answer) () (change? answer)) :
    Grants p s (prompt text >>= k) () fun input =>
      (given? .ok (readLine input).1).bind fun answer => change? answer (readLine input).2 := by
  intro disk w
  have hrun : (prompt text >>= k).run disk s w =
      match (readLine w.console.input).1 with
      | .ok answer => (k answer).run disk s (w.asked text)
      | .error e => (.interrupted e, s, w.asked text) :=
    run_ask disk text k s w
  rw [hrun]
  dsimp only
  cases (readLine w.console.input).1 with
  | error e => rfl
  | ok answer =>
    dsimp only [given?]
    cases hempty : answer.isEmpty with
    | true =>
      rw [hblank answer hempty]
      rfl
    | false => exact hanswer answer hempty disk (w.asked text)

/-- A question goes on with the value that the answer gives, or leads to no change. -/
theorem grants_askFor {k : Answer α → Dialogue State Unit}
    {change? : α → List UInt8 → Option Change}
    (hblank : k .blank = pure ()) (hunreadable : k .unreadable = pure ())
    (hvalue : ∀ a, Grants p s (k (.value a)) () (change? a)) :
    Grants p s (askFor text read >>= k) () fun input =>
      (given? read (readLine input).1).bind fun a => change? a (readLine input).2 := by
  intro disk w
  obtain ⟨w', hinput, hrun⟩ := exists_run_askFor disk text read s w
  rw [run_bind, hrun]
  dsimp only
  rw [← hinput]
  cases (readLine w.console.input).1 with
  | error e => rfl
  | ok answer =>
    dsimp only [answerOf, given?]
    cases answer.isEmpty with
    | true =>
      rw [if_pos rfl, if_pos rfl, hblank]
      rfl
    | false =>
      cases read answer with
      | ok a => exact hvalue a disk w'
      | error message =>
        rw [if_neg Bool.false_ne_true, if_neg Bool.false_ne_true]
        dsimp only
        rw [hunreadable]
        rfl

/-- The question for an index goes on with an index of the sheet, or leads to no change. -/
theorem grants_askIndex {k : Option Nat → Dialogue State Unit}
    {change? : Nat → List UInt8 → Option Change} (hnone : k none = pure ())
    (hsome : ∀ i < s.sheet.size, Grants p s (k (some i)) () (change? i)) :
    Grants p s (askIndex s.sheet >>= k) () fun input =>
      (givenIndex? s.sheet (readLine input).1).bind fun i => change? i (readLine input).2 := by
  have hremark (text : String) :
      Grants p s (Dialogue.print text >>= fun _ => k none) () fun _ => none :=
    (hnone ▸ grants_pure ()).print text
  rw [askIndex]
  split
  · next hempty =>
    have hsize : s.sheet.size = 0 := List.length_eq_zero_iff.2 (List.isEmpty_iff.1 hempty)
    have hindex (answer : Except InputError String) : givenIndex? s.sheet answer = none := by
      rw [givenIndex?, hsize]
      exact Option.filter_eq_none_iff.2 fun i _ => by simp
    simp only [hindex]
    exact hremark emptyText
  · next hempty =>
    have hsize : 1 ≤ s.sheet.size := by
      rw [Sheet.isEmpty, List.isEmpty_iff] at hempty
      exact List.length_pos_iff.2 hempty
    have hlast (i : Nat) : i ≤ s.sheet.size - 1 ↔ i < s.sheet.size := by omega
    rw [difference_eq_ok hsize, liftM_ok_bind, bind_assoc]
    simp only [givenIndex?_bind]
    refine @grants_askFor p s _ _ _ _
      (fun i input => if i < s.sheet.size then change? i input else none) hnone hnone fun i => ?_
    dsimp only
    by_cases hi : i < s.sheet.size
    · simp only [if_pos ((hlast i).2 hi), if_pos hi]
      exact hsome i hi
    · simp only [if_neg fun h => hi ((hlast i).1 h), if_neg hi]
      exact hremark _

end Questions

/-! ## The commands that change the sheet -/

/-- A sheet that is set and reported on at an index is the sheet of the next state. -/
theorem grants_reportEntry {c : Change} {sheet : Sheet}
    (hsheet : sheet.IsFaithful p.mostCoefficients)
    (hc : s.sheet.change? p.mostCoefficients c = some sheet) {i : Nat}
    (hi : i < sheet.entries.length) :
    Grants p s (become { s with sheet := sheet } >>= fun _ =>
      liftM (fetch sheet.entries i) >>= fun e => reportEntry p i e) () fun _ => some c := by
  obtain ⟨text, htext⟩ := exists_reportEntry_eq_print (hsheet _ (List.getElem_mem hi)) i
  rw [fetch_eq_ok hi, liftM_ok_bind, htext]
  exact grants_become_print hc text

section Commands

variable (h : s.IsSound p)

include h

theorem addEquation_grants : Grants p s (addEquation p s) () fun input =>
    requested? s.sheet .add (answers 2 input) := by
  rw [addEquation]
  refine @grants_prompt p s _ _ (fun text _ => some (.add text)) ?_ ?_
  · intro text htext
    rw [if_pos htext]
  · intro text htext
    have hsize : s.sheet.size < (s.sheet.add p.mostCoefficients text).entries.length := by
      simp [Sheet.add, Sheet.size]
    rw [htext, if_neg Bool.false_ne_true]
    exact grants_reportEntry (h.isFaithful.add text) rfl hsize

theorem editEquation_grants : Grants p s (editEquation p s) () fun input =>
    requested? s.sheet .edit (answers 2 input) := by
  rw [editEquation]
  refine @grants_askIndex p s _
    (fun i input => do return .edit i (← given? .ok (readLine input).1)) rfl fun i hi => ?_
  dsimp only
  rw [fetch_eq_ok hi]
  refine Grants.print ?_ _
  rw [liftM_ok_bind]
  refine @grants_prompt p s _ _ (fun text _ => some (.edit i text)) ?_ ?_
  · intro text htext
    rw [if_pos htext]
  · intro text htext
    have hedit : s.sheet.edit p.mostCoefficients i text =
        some ⟨s.sheet.entries.modify i (·.setText p.mostCoefficients text)⟩ := if_pos hi
    have hlength : i < (s.sheet.entries.modify i (·.setText p.mostCoefficients text)).length := by
      rw [List.length_modify]
      exact hi
    have hchange : s.sheet.change? p.mostCoefficients (.edit i text) = _ := hedit
    rw [htext, if_neg Bool.false_ne_true, hedit]
    exact grants_reportEntry (h.isFaithful.change? hchange) hchange hlength

omit h

theorem removeEquation_grants (s : State) : Grants p s (removeEquation s) () fun input =>
    requested? s.sheet .remove (answers 2 input) := by
  rw [removeEquation]
  refine @grants_askIndex p s _ (fun i _ => some (.remove i)) rfl fun i hi => ?_
  have hremove : s.sheet.remove i = some (s.sheet.entries[i], ⟨s.sheet.entries.eraseIdx i⟩) := by
    rw [Sheet.remove, Sheet.get?, List.getElem?_eq_getElem hi]
    rfl
  dsimp only
  rw [hremove]
  refine grants_become_print ?_ _
  rw [Sheet.change?, hremove]
  rfl

theorem toggleEquation_grants (s : State) : Grants p s (toggleEquation s) () fun input =>
    requested? s.sheet .toggle (answers 2 input) := by
  rw [toggleEquation]
  refine @grants_askIndex p s _ (fun i _ => some (.toggle i)) rfl fun i hi => ?_
  dsimp only
  have hget : s.sheet.get? i = some s.sheet.entries[i] := List.getElem?_eq_getElem hi
  by_cases hvalid : s.sheet.entries[i].isValid = true
  · have htoggle : s.sheet.toggle i = some (true, ⟨s.sheet.entries.modify i Entry.flip⟩) := by
      rw [Sheet.toggle, hget]
      dsimp only
      rw [if_pos hvalid, Sheet.replace?, if_pos hi]
      rfl
    rw [htoggle]
    refine grants_become ?_
    rw [Sheet.change?, htoggle]
    rfl
  · have htoggle : s.sheet.toggle i = some (false, s.sheet) := by
      rw [Sheet.toggle, hget]
      exact if_neg hvalid
    have hchange : s.sheet.change? p.mostCoefficients (.toggle i) = some s.sheet := by
      rw [Sheet.change?, htoggle]
      rfl
    rw [htoggle]
    exact fun _ _ => ⟨rfl, s.sheet, hchange, rfl⟩

theorem colorEquation_grants (s : State) : Grants p s (colorEquation s) () fun input =>
    requested? s.sheet .color (answers 2 input) := by
  rw [colorEquation]
  refine @grants_askIndex p s _
    (fun i input => do return .recolor i (← given? readColor (readLine input).1)) rfl fun i hi => ?_
  dsimp only
  rw [fetch_eq_ok hi]
  refine Grants.print ?_ _
  rw [liftM_ok_bind]
  refine @grants_askFor p s _ _ _ _ (fun color _ => some (.recolor i color)) rfl rfl fun color => ?_
  have hcolor : s.sheet.setColor i color =
      some ⟨s.sheet.entries.modify i ({ · with color })⟩ := if_pos hi
  dsimp only
  rw [hcolor]
  exact grants_become hcolor

end Commands

/-- Every command but the one that sets the window makes the requested change, or none. -/
theorem perform_grants (h : s.IsSound p) {command : Command} (hwindow : command ≠ .window) :
    Grants p s (perform p s command) () fun input =>
      requested? s.sheet command (answers 2 input) := by
  have hshows (hc : command.Shows) : Grants p s (perform p s command) () fun _ => none :=
    .of_yields (perform_yields_of_shows h hc fun _ => trivial)
  cases command with
  | add => exact addEquation_grants h
  | edit => exact editEquation_grants h
  | remove => exact removeEquation_grants s
  | toggle => exact toggleEquation_grants s
  | color => exact colorEquation_grants s
  | window => exact absurd rfl hwindow
  | _ => exact hshows trivial

/-! ## Turns -/

/-- The world in which the command of a turn is carried out. -/
def commanded (s : State) (w : World) : World :=
  ((w.told (header s.sheet)).asked "> ").told "\n"

theorem respond_grants (h : s.IsSound p) {line : String}
    (hwindow : commandOf? line ≠ some .window) :
    Grants p s (respond p s line) true fun rest => requestOf? s.sheet line rest := by
  unfold requestOf?
  cases hcommand : commandOf? line with
  | none =>
    unfold respond
    rw [hcommand]
    exact (grants_pure true).print _
  | some command =>
    have hne : command ≠ .window := fun heq => hwindow (heq ▸ hcommand)
    by_cases hquit : command = .quit
    · subst hquit
      unfold respond
      rw [hcommand]
      exact grants_pure false
    · rw [respond_of_ne_quit hcommand hquit]
      exact (perform_grants h hne).print_after "\n" true

/-- A turn responds to its first line. -/
theorem run_turn {w : World} {line : String} (hline : (readLine w.console.input).1 = .ok line)
    (p : Platform) (disk : Disk) (s : State) :
    (turn p s).run disk s w = (respond p s line).run disk s (commanded s w) := by
  have hread : (readLine (w.told (header s.sheet)).console.input).1 = .ok line := hline
  rw [turn_eq, run_say, run_ask, hread]
  rfl

/-- One state follows from another by a change of the sheet: the window stays, and so do all
entries but the one that the change is addressed to. -/
structure State.ChangesBy (p : Platform) (s s' : State) (c : Change) : Prop where
  window_eq : s'.window = s.window
  change?_eq : s.sheet.change? p.mostCoefficients c = some s'.sheet
  getElem?_eq : ∀ j e, s.sheet.entries[j]? = some e → c.index? ≠ some j →
    s'.sheet.entries[c.shift j]? = some e

theorem State.changesBy {c : Change} {sheet : Sheet}
    (hc : s.sheet.change? p.mostCoefficients c = some sheet) :
    State.ChangesBy p s { s with sheet := sheet } c where
  window_eq := rfl
  change?_eq := hc
  getElem?_eq := by
    intro j e he hindex
    have hchange : s.sheet.change p.mostCoefficients c = sheet := by rw [Sheet.change, hc]; rfl
    rw [← hchange]
    exact Sheet.getElem?_entries_change he hindex

/-- **A command is carried out or it changes nothing.** In every state of a session, a command to
add, edit, remove, toggle or color whose prompts are all answered, with an index of the sheet and
a text or a color where one is asked for, comes to its end and makes that change of the sheet, which
leaves the window and all other entries alone. If an answer is missing, blank or unreadable, if
there is no equation with the index, and with all other lines but the command that sets the window,
the turn leaves the state behind in which it began, however it ends. -/
theorem turn_changes_as_requested {disk : Disk} {input : List UInt8} {w : World}
    (h : Reachable p disk input s w) {line : String}
    (hline : (readLine w.console.input).1 = .ok line) (hwindow : commandOf? line ≠ some .window) :
    (∀ c, requestOf? s.sheet line (readLine w.console.input).2 = some c →
      ((turn p s).run disk s w).1 = .done true ∧
        s.ChangesBy p ((turn p s).run disk s w).2.1 c) ∧
    (requestOf? s.sheet line (readLine w.console.input).2 = none →
      ((turn p s).run disk s w).2.1 = s) := by
  have hmet : Met p s true (requestOf? s.sheet line (readLine w.console.input).2)
      ((respond p s line).run disk s (commanded s w)) :=
    respond_grants h.isSound hwindow disk (commanded s w)
  rw [run_turn hline]
  constructor
  · intro c hc
    rw [hc] at hmet
    obtain ⟨hdone, sheet, hsheet, hstate⟩ := hmet
    rw [hstate]
    exact ⟨hdone, State.changesBy hsheet⟩
  · intro hnone
    rw [hnone] at hmet
    exact hmet

/-- An equation is edited, and a color that the input does not give is not set. -/
theorem turn_changes_as_requested_edit :
    (((turn .standard (.initial .standard)).run (fun _ => .saved "plot.svg") (.initial .standard)
        ⟨⟨"edit\n0\ny = x\n".toUTF8.data.toList, ""⟩, 0, []⟩).1 = .done true ∧
      (State.initial .standard).ChangesBy .standard
        ((turn .standard (.initial .standard)).run (fun _ => .saved "plot.svg") (.initial .standard)
          ⟨⟨"edit\n0\ny = x\n".toUTF8.data.toList, ""⟩, 0, []⟩).2.1 (.edit 0 "y = x")) ∧
    ((turn .standard (.initial .standard)).run (fun _ => .saved "plot.svg") (.initial .standard)
      ⟨⟨"color\n0\n".toUTF8.data.toList, ""⟩, 0, []⟩).2.1 = .initial .standard := by
  have hedit : (readLine "edit\n0\ny = x\n".toUTF8.data.toList).1 = .ok "edit" := by
    decide +kernel
  have hcolor : (readLine "color\n0\n".toUTF8.data.toList).1 = .ok "color" := by
    decide +kernel
  exact ⟨(turn_changes_as_requested .initial hedit (by decide)).1 _ (by decide +kernel),
    (turn_changes_as_requested .initial hcolor (by decide)).2 (by decide +kernel)⟩

end Session

end PlotSheet
