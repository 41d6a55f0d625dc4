import PlotSheet.Proofs.Equation.Blame
import PlotSheet.Proofs.Session.Dialogue
import PlotSheet.Proofs.Sheet.Change
import PlotSheet.Session.Turn

/-!
# What turns keep

In a sound state every entry holds what reading its text gives, and the window is valid and lies at
the corner of the canvas. In a sound state a turn sets sound states only, whatever the answers are,
and no answers lead to a fault: every index is checked before it is used, and every blamed span can
be underlined. The commands that show, list or plot set no state at all, and they come to an end
unless a curve of the sheet has no last point.

## Main definitions

* `Sheet.IsFaithful`: entries hold what reading their texts gives
* `Sheet.IsEndless`: the sheet has a curve without a last point
* `State.IsSound`: a faithful sheet and a valid window
* `State.promise`: what turns from a state keep
* `Command.Shows`: the commands that set no state
* `commandOf?`, `respond`: the command that a line asks for, and the rest of a turn

## Main results

* `Sheet.IsFaithful.change?`: changes keep a sheet faithful
* `turn_eq`, `respond_yields`: what a turn does with the line that it asks for
* `perform_yields_of_shows`: the commands that set no state
* `turn_yields`: from a sound state a turn sets sound states only, without a fault
-/

namespace PlotSheet

open Dialogue

/-! ## Faithful sheets -/

/-- Every entry holds what reading its text gives. -/
def Sheet.IsFaithful (most : Nat) (s : Sheet) : Prop :=
  ∀ e ∈ s.entries, e.reading = Equation.parse most e.text

variable {most : Nat}

theorem reading_apply (event : Event) {e : Entry} (h : e.reading = Equation.parse most e.text) :
    (event.apply most e).reading = Equation.parse most (event.apply most e).text := by
  cases event with
  | added text => rfl
  | edited text => rfl
  | removed => exact h
  | recolored color => exact h
  | toggled =>
    rw [Event.apply]
    split
    · exact h
    · exact h

namespace Sheet.IsFaithful

variable {s s' : Sheet}

theorem add (h : s.IsFaithful most) (text : String) : (s.add most text).IsFaithful most := by
  intro e he
  rcases List.mem_append.1 he with he | he
  · exact h e he
  · obtain rfl := List.mem_singleton.1 he
    rfl

/-- Changes keep a sheet faithful. -/
theorem change? (h : s.IsFaithful most) {c : Change} (hc : s.change? most c = some s') :
    s'.IsFaithful most := by
  cases hindex : c.index? with
  | none =>
    cases c with
    | add text =>
      obtain rfl := Option.some.inj hc
      exact h.add text
    | _ => cases hindex
  | some i =>
    rw [s.change?_of_index most hindex] at hc
    split at hc
    · obtain rfl := Option.some.inj hc
      intro e he
      dsimp only at he
      split at he
      · exact h e (List.mem_of_mem_eraseIdx he)
      · obtain ⟨j, hj⟩ := List.mem_iff_getElem?.1 he
        rw [List.getElem?_modify] at hj
        obtain ⟨e', he', rfl⟩ := Option.map_eq_some_iff.1 hj
        have hreading := h e' (List.mem_of_getElem? he')
        split
        · exact reading_apply c.event hreading
        · exact hreading
    · cases hc

end Sheet.IsFaithful

/-- There is an equation whose curve has no last point. -/
def Sheet.IsEndless (s : Sheet) : Prop :=
  ∃ e ∈ s.entries, ∃ curve, e.reading = .ok curve ∧ curve.ends = false

/-! ## Texts of a faithful sheet -/

/-- An error that is blamed on a part of a text can be reported. -/
theorem exists_report (measure : Text.Measure) {e : Equation.ParseError} {source : List Char}
    (h : e.span.IsPartOf source) : ∃ text, Equation.report measure e = .ok text := by
  obtain ⟨text, htext⟩ := h.exists_text
  obtain ⟨marked, hmarked⟩ := h.exists_underline
  rw [Equation.report, htext, ok_bind, hmarked]
  exact ⟨_, rfl⟩

namespace Entry

variable {e : Entry}

/-- The figure of an entry shows the curve that its text was read as. -/
theorem reading_of_figure? {f : Drawing.Figure Float} (h : e.figure? = some f) :
    e.reading = .ok f.curve := by
  unfold figure? at h
  split at h
  · next curve hreading =>
    obtain rfl := Option.some.inj h
    exact hreading
  · cases h

/-- What a text was read as is a curve, or an error that is blamed on a part of the text. -/
theorem reading_cases (h : e.reading = Equation.parse most e.text) :
    (∃ curve, e.reading = .ok curve) ∨
      ∃ error, e.reading = .error (.invalid error) ∧
        error.span.IsPartOf (Text.withoutBlanks e.text.toList) := by
  have hwithin := Equation.parse_blamesWithin (α := Float) most e.text
  rw [← h] at hwithin
  match hreading : e.reading with
  | .ok curve => exact .inl ⟨curve, rfl⟩
  | .error (.invalid error) =>
    rw [hreading] at hwithin
    exact .inr ⟨error, rfl, hwithin⟩
  | .error (.fault f) =>
    rw [hreading] at hwithin
    exact hwithin.elim

theorem exists_listing (h : e.reading = Equation.parse most e.text) (i : Nat) :
    ∃ text, e.listing i = .ok text := by
  rcases reading_cases h with ⟨curve, hreading⟩ | ⟨error, hreading, -⟩
  · rw [Entry.listing, readingText, hreading]
    exact ⟨_, rfl⟩
  · rw [Entry.listing, readingText, hreading]
    exact ⟨_, rfl⟩

end Entry

namespace Sheet

theorem exists_entryListings {entries : List Entry}
    (h : ∀ e ∈ entries, e.reading = Equation.parse most e.text) (i : Nat) :
    ∃ text, entryListings i entries = .ok text := by
  induction entries generalizing i with
  | nil => exact ⟨"", rfl⟩
  | cons e entries ih =>
    obtain ⟨text, htext⟩ := Entry.exists_listing (h e List.mem_cons_self) i
    obtain ⟨rest, hrest⟩ := ih (fun e he => h e (List.mem_cons_of_mem _ he)) (i + 1)
    refine ⟨text ++ rest, ?_⟩
    rw [entryListings, htext, ok_bind, hrest]
    rfl

theorem IsFaithful.exists_listing {s : Sheet} (h : s.IsFaithful most) :
    ∃ text, s.listing = .ok text := by
  obtain ⟨text, htext⟩ := exists_entryListings h 0
  rw [listing, htext]
  exact ⟨_, rfl⟩

end Sheet

/-! ## The parts of a turn -/

namespace Command

/-- A name is that of one command. -/
theorem ofName?_eq_some_iff {name : String} {c : Command} :
    ofName? name = some c ↔ name = c.name := by
  constructor
  · intro h
    rw [ofName?] at h
    have hfound := List.find?_some h
    exact (beq_iff_eq.1 hfound).symm
  · rintro rfl
    exact ofName?_name c

/-- The command shows or saves something, or nothing, and changes neither sheet nor window. -/
def Shows : Command → Prop
  | help | quit | list | points | plot => True
  | add | edit | remove | toggle | color | window => False

end Command

namespace Session

variable {p : Platform}

/-- The command that a line asks for. -/
def commandOf? (line : String) : Option Command :=
  Command.ofName? (String.ofList (line.toList.map Char.toLower))

/-- What a turn does with its first line. -/
def respond (p : Platform) (s : State) (line : String) : Dialogue State Bool :=
  match commandOf? line with
  | some .quit => pure false
  | some command => do
    perform p s command
    Dialogue.print "\n"
    return true
  | none => do
    Dialogue.print (unknownText p (String.ofList (line.toList.map Char.toLower)) ++ "\n")
    return true

/-- A turn asks for a line and responds to it. -/
theorem turn_eq (p : Platform) (s : State) :
    turn p s = .say (header s.sheet) (.ask "> " fun line => .say "\n" (respond p s line)) :=
  rfl

theorem respond_of_ne_quit {line : String} {command : Command} (h : commandOf? line = some command)
    (hne : command ≠ .quit) (s : State) :
    respond p s line = perform p s command >>= fun _ => .say "\n" (pure true) := by
  unfold respond
  rw [h]
  cases command with
  | quit => exact absurd rfl hne
  | _ => rfl

/-! ## The commands -/

/-- A state with a faithful sheet and a valid window at the corner of the canvas. -/
structure State.IsSound (p : Platform) (s : State) : Prop where
  isFaithful : s.sheet.IsFaithful p.mostCoefficients
  isValid : s.window.IsValid
  left : s.window.frame.x = 0
  top : s.window.frame.y = 0

/-- Every state that is set is sound, and there is an end unless a curve of the sheet has none. -/
def State.promise (p : Platform) (s : State) : Promise State :=
  ⟨State.IsSound p, s.sheet.IsEndless⟩

variable {promise : Promise State}

/-- An index that was asked for is one of the sheet. -/
theorem askIndex_yields (s : Sheet) : (askIndex s).Yields promise fun o => ∀ i ∈ o, i < s.size := by
  rw [askIndex]
  split
  · simp only [yields_bind, yields_print, yields_pure]
    exact fun i hi => (Option.not_mem_none i hi).elim
  · next hempty =>
    have hsize : 1 ≤ s.size := by
      rw [Sheet.isEmpty, List.isEmpty_iff] at hempty
      exact List.length_pos_iff.2 hempty
    simp only [yields_bind]
    refine yields_lift.2 ⟨_, difference_eq_ok hsize, ?_⟩
    have hnone : ∀ i ∈ none, i < s.size := fun i hi => (Option.not_mem_none i hi).elim
    refine Yields.askFor hnone hnone fun answer i _ => ?_
    dsimp only
    split
    · next hi =>
      rintro j ⟨⟩
      omega
    · simp only [yields_bind, yields_print, yields_pure]
      exact hnone

/-- What follows the question for an index follows from any index of the sheet, or from none. -/
theorem bind_askIndex_yields {α : Type} {s : Sheet} {k : Option Nat → Dialogue State α}
    {post : α → Prop} (hnone : (k none).Yields promise post)
    (hsome : ∀ i < s.size, (k (some i)).Yields promise post) :
    (askIndex s >>= k).Yields promise post := by
  rw [yields_bind]
  refine (askIndex_yields s).mono fun o ho => ?_
  cases o with
  | none => exact hnone
  | some i => exact hsome i (ho i rfl)

/-- What is said about an entry of a faithful sheet. -/
theorem exists_reportEntry_eq_print {e : Entry}
    (h : e.reading = Equation.parse p.mostCoefficients e.text) (i : Nat) :
    ∃ text, reportEntry p i e = Dialogue.print text := by
  rcases Entry.reading_cases h with ⟨curve, hreading⟩ | ⟨error, hreading, hpart⟩
  · rw [reportEntry, hreading]
    exact ⟨_, rfl⟩
  · obtain ⟨text, htext⟩ := exists_report p.measure hpart
    rw [reportEntry, hreading]
    dsimp only
    rw [htext, liftM_ok_bind]
    exact ⟨_, rfl⟩

theorem reportEntry_yields {e : Entry} (h : e.reading = Equation.parse p.mostCoefficients e.text)
    (i : Nat) : (reportEntry p i e).Yields promise fun _ => True := by
  obtain ⟨text, htext⟩ := exists_reportEntry_eq_print h i
  rw [htext]
  trivial

/-- A plot comes to an end unless a curve of the sheet has none. -/
theorem isEndless_of_endsPlot {s : State} (h : endsPlot s = false) : s.sheet.IsEndless := by
  obtain ⟨f, hf, hends⟩ := List.all_eq_false.1 h
  obtain ⟨e, he, hfigure⟩ := List.mem_filterMap.1 (List.mem_filter.1 hf).1
  exact ⟨e, he, f.curve, Entry.reading_of_figure? hfigure, by simpa using hends⟩

/-- A plot sets no state, whatever becomes of it. -/
theorem plot_yields (p : Platform) {s : State} (hendless : s.sheet.IsEndless → promise.endless) :
    (plot p s).Yields promise fun _ => True := by
  have hplot : (plotSheet p s).Yields promise fun _ => True := by
    unfold plotSheet
    split
    · exact fun _ => trivial
    · split
      · trivial
      · split
        · split
          · trivial
          · intro saved
            cases saved with
            | ok path => exact fun _ => trivial
            | error e => trivial
        · next hends => exact hendless (isEndless_of_endsPlot (eq_false_of_ne_true hends))
  rw [plot, yields_bind]
  refine hplot.mono fun ended _ => ?_
  cases ended with
  | ok result => trivial
  | error trouble => trivial

section Commands

variable {s : State} (h : s.IsSound p)

include h

theorem listEquations_yields : (listEquations s).Yields promise fun _ => True := by
  obtain ⟨text, htext⟩ := h.isFaithful.exists_listing
  rw [listEquations]
  simp only [yields_bind]
  exact yields_lift.2 ⟨text, htext, trivial⟩

theorem listPoints_yields (hendless : s.sheet.IsEndless → promise.endless) :
    (listPoints p s).Yields promise fun _ => True := by
  rw [listPoints]
  refine bind_askIndex_yields trivial fun i hi => ?_
  simp only [yields_bind]
  refine yields_lift.2 ⟨_, fetch_eq_ok hi, ?_⟩
  rcases Entry.reading_cases (h.isFaithful _ (List.getElem_mem hi)) with
    ⟨curve, hreading⟩ | ⟨error, hreading, hpart⟩
  · rw [hreading]
    simp only [yields_bind, yields_print]
    split
    · trivial
    · next hends =>
      exact hendless ⟨_, List.getElem_mem hi, curve, hreading, eq_false_of_ne_true hends⟩
  · obtain ⟨text, htext⟩ := exists_report p.measure hpart
    rw [hreading]
    simp only [yields_bind]
    exact yields_lift.2 ⟨text, htext, trivial⟩

/-- The commands that only show something set no state. -/
theorem perform_yields_of_shows {c : Command} (hc : c.Shows)
    (hendless : s.sheet.IsEndless → promise.endless) :
    (perform p s c).Yields promise fun _ => True := by
  cases c with
  | help => trivial
  | quit => trivial
  | list => exact listEquations_yields h
  | points => exact listPoints_yields h hendless
  | plot => exact plot_yields p hendless
  | _ => exact hc.elim

/-- Another faithful sheet makes another sound state. -/
theorem State.IsSound.withSheet {sheet : Sheet} (hsheet : sheet.IsFaithful p.mostCoefficients) :
    State.IsSound p { s with sheet := sheet } :=
  ⟨hsheet, h.isValid, h.left, h.top⟩

theorem addEquation_yields : (addEquation p s).Yields (s.promise p) fun _ => True := by
  rw [addEquation]
  simp only [yields_bind, yields_prompt]
  intro text
  split
  · trivial
  · have hsheet := h.isFaithful.add text
    have hsize : s.sheet.size < (s.sheet.add p.mostCoefficients text).entries.length := by
      simp [Sheet.add, Sheet.size]
    simp only [yields_bind, yields_become]
    refine ⟨h.withSheet hsheet, yields_lift.2 ⟨_, fetch_eq_ok hsize, ?_⟩⟩
    exact reportEntry_yields (hsheet _ (List.getElem_mem hsize)) _

theorem editEquation_yields : (editEquation p s).Yields (s.promise p) fun _ => True := by
  rw [editEquation]
  refine bind_askIndex_yields trivial fun i hi => ?_
  simp only [yields_bind, yields_print]
  refine yields_lift.2 ⟨_, fetch_eq_ok hi, ?_⟩
  simp only [yields_prompt]
  intro text
  split
  · trivial
  · cases hedit : s.sheet.edit p.mostCoefficients i text with
    | none => trivial
    | some sheet =>
      have hsheet : sheet.IsFaithful p.mostCoefficients :=
        h.isFaithful.change? (c := .edit i text) hedit
      have hi' : i < sheet.entries.length := by
        rw [Sheet.edit, Sheet.replace?, if_pos hi] at hedit
        obtain rfl := Option.some.inj hedit
        exact (List.length_modify ..).symm ▸ hi
      simp only [yields_bind, yields_become]
      refine ⟨h.withSheet hsheet, yields_lift.2 ⟨_, fetch_eq_ok hi', ?_⟩⟩
      exact reportEntry_yields (hsheet _ (List.getElem_mem hi')) _

theorem removeEquation_yields : (removeEquation s).Yields (s.promise p) fun _ => True := by
  rw [removeEquation]
  refine bind_askIndex_yields trivial fun i _ => ?_
  cases hremove : s.sheet.remove i with
  | none =>
    simp only [hremove]
    trivial
  | some result =>
    obtain ⟨removed, sheet⟩ := result
    have hchange : s.sheet.change? p.mostCoefficients (.remove i) = some sheet := by
      rw [Sheet.change?, hremove]
      rfl
    simp only [hremove, yields_bind, yields_become, yields_print]
    exact ⟨h.withSheet (h.isFaithful.change? hchange), trivial⟩

theorem toggleEquation_yields : (toggleEquation s).Yields (s.promise p) fun _ => True := by
  rw [toggleEquation]
  refine bind_askIndex_yields trivial fun i hi => ?_
  have hsome : (s.sheet.toggle i).map Prod.snd ≠ none := by
    rw [s.sheet.toggle_eq p.mostCoefficients, if_pos hi]
    exact Option.some_ne_none _
  dsimp only
  match htoggle : s.sheet.toggle i with
  | none => exact (hsome (by rw [htoggle]; rfl)).elim
  | some (true, sheet) =>
    have hchange : s.sheet.change? p.mostCoefficients (.toggle i) = some sheet := by
      rw [Sheet.change?, htoggle]
      rfl
    exact ⟨h.withSheet (h.isFaithful.change? hchange), trivial⟩
  | some (false, _) => trivial

theorem colorEquation_yields : (colorEquation s).Yields (s.promise p) fun _ => True := by
  rw [colorEquation]
  refine bind_askIndex_yields trivial fun i hi => ?_
  simp only [yields_bind, yields_print]
  refine yields_lift.2 ⟨_, fetch_eq_ok hi, ?_⟩
  refine Yields.askFor trivial trivial fun answer color _ => ?_
  cases hcolor : s.sheet.setColor i color with
  | none =>
    simp only [hcolor]
    trivial
  | some sheet =>
    have hchange : s.sheet.change? p.mostCoefficients (.recolor i color) = some sheet := hcolor
    simp only [hcolor]
    exact ⟨h.withSheet (h.isFaithful.change? hchange), trivial⟩

omit h in
/-- What follows the question for a part of the window follows from a value for it, or from none. -/
theorem bind_askPart_yields {α : Type} {name current : String} {read : String → Except String α}
    {old : α} {k : Option α → Dialogue State Unit} {post : Unit → Prop}
    (hnone : (k none).Yields promise post) (hsome : ∀ a, (k (some a)).Yields promise post) :
    (askPart name current read old >>= k).Yields promise post := by
  rw [askPart, yields_bind, yields_bind]
  exact Yields.askFor (hsome old) hnone fun _ a _ => hsome a

theorem setWindow_yields : (setWindow s).Yields (s.promise p) fun _ => True := by
  rw [setWindow, yields_bind, yields_print]
  refine bind_askPart_yields trivial fun left => ?_
  refine bind_askPart_yields trivial fun right => ?_
  refine bind_askPart_yields trivial fun bottom => ?_
  refine bind_askPart_yields trivial fun top => ?_
  rw [yields_bind, yields_print]
  refine bind_askPart_yields trivial fun width => ?_
  refine bind_askPart_yields trivial fun height => ?_
  dsimp only
  split
  · next hvalid => exact ⟨⟨h.isFaithful, hvalid, h.left, h.top⟩, trivial⟩
  · trivial

/-- Commands set sound states only, and come to an end unless a curve has none. -/
theorem perform_yields (c : Command) :
    (perform p s c).Yields (s.promise p) fun _ => True := by
  cases c with
  | add => exact addEquation_yields h
  | edit => exact editEquation_yields h
  | remove => exact removeEquation_yields h
  | toggle => exact toggleEquation_yields h
  | color => exact colorEquation_yields h
  | window => exact setWindow_yields h
  | _ => exact perform_yields_of_shows h trivial id

/-- Whatever the answers are, the response to a line sets sound states only, and it is the last one
if the line is the command to quit. -/
theorem respond_yields (line : String) :
    (respond p s line).Yields (s.promise p) fun goesOn =>
      goesOn = false ↔ commandOf? line = some .quit := by
  cases hcommand : commandOf? line with
  | none =>
    unfold respond
    rw [hcommand]
    exact iff_of_false Bool.true_eq_false.mp (fun hquit => nomatch hquit)
  | some command =>
    by_cases hquit : command = .quit
    · unfold respond
      rw [hcommand, hquit]
      exact iff_of_true rfl rfl
    · rw [respond_of_ne_quit hcommand hquit, yields_bind]
      refine (perform_yields h command).mono fun _ _ => ?_
      exact iff_of_false Bool.true_eq_false.mp (fun heq => hquit (Option.some.inj heq))

/-- **From a sound state a turn sets sound states only**, and no answers lead to a fault. -/
theorem turn_yields : (turn p s).Yields (s.promise p) fun _ => True := by
  rw [turn_eq]
  intro line
  exact (respond_yields h line).mono fun _ _ => trivial

end Commands

end Session

end PlotSheet
