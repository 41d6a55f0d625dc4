import Mathlib.Logic.Relation
import PlotSheet.Proofs.Session.Causality

/-!
# Where sessions stop

A session is a system of steps: it writes, asks, saves and goes on to the next turn, and at every
step its surroundings decide how it goes on. They answer each prompt with any line, end the input or
fail to read it, and they take each text or refuse it; they save a document or not. A refused text
stops the session, except for what a plot says, which is answered by an error report. No choice of
theirs breaks a session: it goes on until it is told to quit, its input ends, or something cannot be
read or written. Every index that a command works with is one of the sheet of its turn, and every
error of an entry is blamed on a stretch of its text that can be underlined.

## Main definitions

* `Position`, `Step`: the positions of a session, and the steps between them
* `Position.IsSafe`: the invariant of all positions
* `State.TurnsSafely`: what holds of every turn from a state

## Main results

* `Step.isSafe`: steps lead from safe positions to safe positions
* `Reaches.isSafe`: so all positions of a session are safe
* `Position.exists_step`: a session goes on unless it is stopped or broken
* `reaches_turns`: the turns on an input are steps of a session, up to where it stops
* `sessions_stop_safely`: what holds at all positions, and where the session on an input stops
-/

namespace PlotSheet.Session

open Dialogue

/-! ## The steps of a session -/

/-- Why a session stops. -/
inductive Stop where
  | quit
  | endOfInput
  | failedRead
  | failedWrite
  deriving DecidableEq, Repr

/-- The exit status. -/
def Stop.status : Stop → Nat
  | quit | endOfInput => 0
  | failedRead | failedWrite => 1

/-- Where a session is. -/
inductive Position where
  /-- In a turn, with the state of the session and the rest of the dialogue. -/
  | within (s : State) (rest : Dialogue State Bool)
  /-- Behind the last turn, with the end of the output still to be written. -/
  | closing (why : Stop)
  | stopped (why : Stop)
  | broken (f : Fault)

variable (p : Platform)

/-- The position that a session starts from. -/
def Position.start : Position :=
  .within (.initial p) (turn p (.initial p))

/-- A step of a session in some surroundings. -/
inductive Step : Position → Position → Prop
  | put {s s' : State} {next : Dialogue State Bool} :
    Step (.within s (.put s' next)) (.within s' next)
  | taken {s : State} {text : String} {next : Dialogue State Bool} :
    Step (.within s (.say text next)) (.within s next)
  | refused {s : State} {text : String} {next : Dialogue State Bool} :
    Step (.within s (.say text next)) (.stopped .failedWrite)
  | told {s : State} {text : String} {next : Except String Unit → Dialogue State Bool}
      (told : Except String Unit) : Step (.within s (.tell text next)) (.within s (next told))
  | answer {s : State} {prompt : String} {next : String → Dialogue State Bool}
      (line : String) : Step (.within s (.ask prompt next)) (.within s (next line))
  | endOfInput {s : State} {prompt : String} {next : String → Dialogue State Bool} :
    Step (.within s (.ask prompt next)) (.closing .endOfInput)
  | failedRead {s : State} {prompt : String} {next : String → Dialogue State Bool} :
    Step (.within s (.ask prompt next)) (.stopped .failedRead)
  | refusedPrompt {s : State} {prompt : String} {next : String → Dialogue State Bool} :
    Step (.within s (.ask prompt next)) (.stopped .failedWrite)
  | save {s : State} {document : String} {next : Except SaveError String → Dialogue State Bool}
      (saved : Except SaveError String) :
    Step (.within s (.save document next)) (.within s (next saved))
  | onwards {s : State} : Step (.within s .endless) (.within s .endless)
  /-- Points that are listed without end may be refused at any time. -/
  | refusedPoint {s : State} : Step (.within s .endless) (.stopped .failedWrite)
  | turn {s : State} : Step (.within s (.done true)) (.within s (Session.turn p s))
  | quit {s : State} : Step (.within s (.done false)) (.closing .quit)
  | closed {why : Stop} : Step (.closing why) (.stopped why)
  | refusedEnd {why : Stop} : Step (.closing why) (.stopped .failedWrite)
  | fault {s : State} {f : Fault} : Step (.within s (.fault f)) (.broken f)

/-- The session comes to the position in some surroundings. -/
abbrev Reaches (x : Position) : Prop :=
  Relation.ReflTransGen (Step p) (.start p) x

/-! ## The invariant -/

/-- The state is sound, and so are all that the rest of the turn sets. -/
def Position.IsSafe : Position → Prop
  | within s rest => s.IsSound p ∧ rest.Yields ⟨State.IsSound p, True⟩ fun _ => True
  | closing _ => True
  | stopped _ => True
  | broken _ => False

variable {p} {x y : Position}

/-- The turn from a sound state is safe. -/
theorem State.IsSound.isSafe_turn {s : State} (h : s.IsSound p) :
    Position.IsSafe p (.within s (turn p s)) :=
  ⟨h, (turn_yields h).weaken (fun _ hs => hs) (fun _ => trivial) fun _ _ => trivial⟩

/-- Steps lead from safe positions to safe positions. -/
theorem Step.isSafe (hstep : Step p x y) (h : x.IsSafe p) : y.IsSafe p := by
  cases hstep with
  | put => exact h.2
  | taken => exact h
  | refused => trivial
  | told told => exact ⟨h.1, h.2 told⟩
  | answer line => exact ⟨h.1, h.2 line⟩
  | endOfInput => trivial
  | failedRead => trivial
  | refusedPrompt => trivial
  | save saved => exact ⟨h.1, h.2 saved⟩
  | onwards => exact h
  | refusedPoint => trivial
  | turn => exact h.1.isSafe_turn
  | quit => trivial
  | closed => trivial
  | refusedEnd => trivial
  | fault => exact h.2

/-- All positions of a session are safe. -/
theorem Reaches.isSafe (h : Reaches p x) : x.IsSafe p := by
  induction h with
  | refl => exact (State.isSound_initial p).isSafe_turn
  | tail _ hstep ih => exact hstep.isSafe ih

/-- A session goes on unless it is stopped or broken. -/
theorem Position.exists_step (p : Platform) (x : Position) :
    (∃ y, Step p x y) ∨ (∃ why, x = .stopped why) ∨ ∃ f, x = .broken f := by
  match x with
  | .within s (.done true) => exact .inl ⟨_, .turn⟩
  | .within s (.done false) => exact .inl ⟨_, .quit⟩
  | .within s (.put s' next) => exact .inl ⟨_, .put⟩
  | .within s (.say text next) => exact .inl ⟨_, .taken⟩
  | .within s (.tell text next) => exact .inl ⟨_, .told (.ok ())⟩
  | .within s (.ask prompt next) => exact .inl ⟨_, .endOfInput⟩
  | .within s (.save document next) => exact .inl ⟨_, .save (.ok "")⟩
  | .within s .endless => exact .inl ⟨_, .onwards⟩
  | .within s (.fault f) => exact .inl ⟨_, .fault⟩
  | .closing why => exact .inl ⟨_, .closed⟩
  | .stopped why => exact .inr (.inl ⟨why, rfl⟩)
  | .broken f => exact .inr (.inr ⟨f, rfl⟩)

/-! ## The turn from a state -/

/-- What holds of every turn from a state. -/
structure State.TurnsSafely (p : Platform) (s : State) : Prop where
  /-- The commands that work on an entry begin with the question for its index in the sheet. -/
  asks : (∀ d ∈ [editEquation p s, removeEquation s, toggleEquation s, colorEquation s,
    listPoints p s], ∃ k, d = askIndex s.sheet >>= k)
  /-- An index that was asked for is one of the sheet, so that the entry there and the one that a
  change works on are found. -/
  finds : (askIndex s.sheet).Yields ⟨fun _ => False, False⟩ fun o => ∀ i ∈ o, i < s.sheet.size ∧
    (∃ e, fetch s.sheet.entries i = .ok e) ∧
    ∀ c : Change, c.index? = some i → s.sheet.change? p.mostCoefficients c ≠ none
  /-- Only the command to quit leads to no further turn. -/
  quits : ∃ next, turn p s = .say (header s.sheet) (.ask "> " next) ∧
    ∀ line, (next line).Yields (s.promise p) fun goesOn =>
      goesOn = false ↔ String.ofList (line.toList.map Char.toLower) = Command.quit.name
  /-- The entries hold what reading their texts gives. -/
  holds : s.sheet.IsFaithful p.mostCoefficients

/-- An entry is found at an index that was asked for, and so is what a change of it works on. -/
theorem askIndex_yields_found (most : Nat) (s : Sheet) :
    (askIndex s).Yields ⟨fun _ => False, False⟩ fun o => ∀ i ∈ o, i < s.size ∧
      (∃ e, fetch s.entries i = .ok e) ∧
      ∀ c : Change, c.index? = some i → s.change? most c ≠ none := by
  refine (askIndex_yields s).mono ?_
  intro o ho i hi
  have hlt := ho i hi
  refine ⟨hlt, ⟨_, fetch_eq_ok hlt⟩, ?_⟩
  intro c hc hnone
  obtain ⟨j, hj, hle⟩ := (s.change?_eq_none_iff most).1 hnone
  obtain rfl := Option.some.inj (hc.symm.trans hj)
  exact absurd hlt (Nat.not_lt.2 hle)

/-- Turns from sound states are safe. -/
theorem State.IsSound.turnsSafely {s : State} (h : s.IsSound p) : s.TurnsSafely p where
  asks := by
    simp only [List.forall_mem_cons]
    exact ⟨⟨_, rfl⟩, ⟨_, rfl⟩, ⟨_, rfl⟩, ⟨_, rfl⟩, ⟨_, rfl⟩, fun d hd => (List.not_mem_nil hd).elim⟩
  finds := askIndex_yields_found p.mostCoefficients s.sheet
  quits := by
    refine ⟨_, turn_eq p s, fun line => (respond_yields h line).mono fun _ hgoesOn => ?_⟩
    exact hgoesOn.trans Command.ofName?_eq_some_iff
  holds := h.isFaithful

/-! ## The session on an input -/

/-- The position at which an outcome leaves a turn, with the state that it leaves behind. -/
def Position.ofOutcome (s : State) : Outcome Bool → Position
  | .done goesOn => .within s (.done goesOn)
  | .interrupted .endOfInput => .closing .endOfInput
  | .interrupted .notUtf8 => .stopped .failedRead
  | .endless => .within s .endless
  | .fault f => .broken f

/-- The position at which a session ends, with its last state, or from which it goes on without
end. -/
def Ending.position (s : State) : Ending → Position
  | quit => .stopped .quit
  | interrupted .endOfInput => .stopped .endOfInput
  | interrupted .notUtf8 => .stopped .failedRead
  | endless => .within s .endless
  | fault f => .broken f

section Input

variable (disk : Disk)

/-- The run of a dialogue takes the steps of a session. -/
theorem steps_run (s : State) (d : Dialogue State Bool) (w : World) :
    Relation.ReflTransGen (Step p) (.within s d)
      (.ofOutcome (d.run disk s w).2.1 (d.run disk s w).1) := by
  induction d generalizing s w with
  | done goesOn => exact .refl
  | put s' next ih => exact .head .put (ih _ _)
  | say text next ih => exact .head .taken (ih _ _)
  | tell text next ih => exact .head (.told _) (ih _ _ _)
  | ask prompt next ih =>
    rw [run_ask]
    cases (readLine w.console.input).1 with
    | ok line => exact .head (.answer line) (ih line _ _)
    | error e =>
      cases e with
      | endOfInput => exact .single .endOfInput
      | notUtf8 => exact .single .failedRead
  | save document next ih => exact .head (.save _) (ih _ _ _)
  | endless => exact .refl
  | fault f => exact .single .fault

/-- A dialogue that is stopped by the end of the input leaves nothing of it. -/
theorem input_eq_nil_of_run {σ α : Type} {d : Dialogue σ α} {s s' : σ} {w w' : World}
    (h : d.run disk s w = (.interrupted .endOfInput, s', w')) : w'.console.input = [] := by
  induction d generalizing s w with
  | done a => cases h
  | put s'' next ih => exact ih h
  | say text next ih => exact ih h
  | tell text next ih => exact ih _ h
  | ask prompt next ih =>
    rw [run_ask] at h
    cases hread : (readLine w.console.input).1 with
    | ok line =>
      rw [hread] at h
      exact ih line h
    | error e =>
      rw [hread] at h
      obtain ⟨he, hleft⟩ := Prod.mk.inj h
      obtain rfl := Outcome.interrupted.inj he
      have hnil := readLine_eq_endOfInput_iff.1 hread
      rw [← (Prod.mk.inj hleft).2, World.asked, hnil]
      rfl
  | save document next ih => exact ih _ h
  | endless => cases h
  | fault f => cases h

/-- The turns on an input are steps of a session, and they end only at its end or where the session
stops. -/
theorem reaches_turns {fuel : Nat} {s : State} {w : World}
    (hfuel : w.console.input.length < fuel) :
    Relation.ReflTransGen (Step p) (.within s (turn p s))
        ((turns p disk fuel s w).1.position (turns p disk fuel s w).2.1) ∧
      ((turns p disk fuel s w).1 = .interrupted .endOfInput →
        (turns p disk fuel s w).2.2.console.input = []) := by
  induction fuel generalizing s w with
  | zero => exact absurd hfuel (Nat.not_lt_zero _)
  | succ fuel ih =>
    have hsteps := steps_run (p := p) disk s (turn p s) w
    rw [turns_succ]
    rcases hrun : (turn p s).run disk s w with ⟨o, s', w'⟩
    rw [hrun] at hsteps
    rcases o with (- | -) | e | - | f
    · exact ⟨(hsteps.tail .quit).tail .closed, fun h => nomatch h⟩
    · -- each turn reads at least one byte, so that the fuel lasts
      have hlt := turn_length_lt hrun
      obtain ⟨hnext, hnil⟩ := ih (s := s') (w := w') (by omega)
      exact ⟨(hsteps.tail .turn).trans hnext, hnil⟩
    · refine ⟨?_, ?_⟩
      · cases e with
        | endOfInput => exact hsteps.tail .closed
        | notUtf8 => exact hsteps
      · intro he
        rw [Ending.interrupted.inj he] at hrun
        exact input_eq_nil_of_run disk hrun
    · exact ⟨hsteps, fun h => nomatch h⟩
    · exact ⟨hsteps, fun h => nomatch h⟩

/-- A session that ends without a fault is stopped, with the exit status for the reason. -/
theorem Ending.exists_stopped {ending : Ending} (hends : ending ≠ .endless)
    (hfault : ∀ f, ending ≠ .fault f) (s : State) :
    ∃ why, ending.position s = .stopped why ∧ ending.status = some why.status ∧
      (why = .endOfInput → ending = .interrupted .endOfInput) := by
  cases ending with
  | quit => exact ⟨.quit, rfl, rfl, fun h => nomatch h⟩
  | interrupted e =>
    cases e with
    | endOfInput => exact ⟨.endOfInput, rfl, rfl, fun _ => rfl⟩
    | notUtf8 => exact ⟨.failedRead, rfl, rfl, fun h => nomatch h⟩
  | endless => exact absurd rfl hends
  | fault f => exact absurd rfl (hfault f)

/-- The session on an input comes to where it stops, and leaves no input if that is its end, or it
comes to a curve without a last point. -/
theorem exists_stopped_runInput (input : List UInt8) :
    (∃ why, Reaches p (.stopped why) ∧
      (runInput p disk input).1.position (runInput p disk input).2.1 = .stopped why ∧
      (transcript p disk input).status = some why.status ∧
      (why = .endOfInput → (runInput p disk input).2.2.console.input = [])) ∨
    ((runInput p disk input).1 = .endless ∧
      ∃ s w, Reachable p disk input s w ∧ s.sheet.IsEndless) := by
  by_cases hends : (runInput p disk input).1 = .endless
  · exact .inr ⟨hends, exists_isEndless_of_turns .initial _ hends⟩
  · have hfault (f : Fault) : (runInput p disk input).1 ≠ .fault f :=
      (turns_kept (State.isSound_initial p) _ _).2 f
    obtain ⟨why, hposition, hstatus, hwhy⟩ :=
      Ending.exists_stopped hends hfault (runInput p disk input).2.1
    have hturns : Reaches p ((runInput p disk input).1.position (runInput p disk input).2.1) ∧
        ((runInput p disk input).1 = .interrupted .endOfInput →
          (runInput p disk input).2.2.console.input = []) :=
      reaches_turns disk (w := ⟨⟨input, ""⟩, 0, []⟩) (Nat.lt_succ_self input.length)
    rw [hposition] at hturns
    exact .inl ⟨why, hturns.1, hposition, hstatus, fun h => hturns.2 (hwhy h)⟩

end Input

/-- **Sessions stop safely.** Whatever the surroundings of a session do, no promise is broken, a
session that is not stopped goes on, and every turn is safe: the indices that its commands work with
are found in the sheet, and only the command to quit leads to no further turn. Every error of a text
is blamed on a stretch between two boundaries of its UTF-8 form, which can be underlined. On every
input the session is told to quit, comes to the end of the input, or cannot read a line, and its
exit status says whether it failed, unless it came to a curve whose points do not end. -/
theorem sessions_stop_safely (p : Platform) :
    (∀ f, ¬ Reaches p (.broken f)) ∧
    (∀ x, Reaches p x → (∃ why, x = .stopped why) ∨ ∃ y, Step p x y) ∧
    (∀ s rest, Reaches p (.within s rest) → s.TurnsSafely p) ∧
    (∀ text e, Equation.parse (α := Float) p.mostCoefficients text = .error (.invalid e) →
      e.span.source = Text.withoutBlanks text.toList ∧
      (⟨e.span.start⟩ : String.Pos.Raw).IsValid
        (String.ofList (Text.withoutBlanks text.toList)) ∧
      (⟨e.span.start + e.span.length⟩ : String.Pos.Raw).IsValid
        (String.ofList (Text.withoutBlanks text.toList)) ∧
      ∃ marked, e.span.underline = .ok marked) ∧
    (∀ disk input,
      (∃ why, Reaches p (.stopped why) ∧
        (runInput p disk input).1.position (runInput p disk input).2.1 = .stopped why ∧
        (transcript p disk input).status = some why.status ∧
        (why = .endOfInput → (runInput p disk input).2.2.console.input = [])) ∨
      ((runInput p disk input).1 = .endless ∧
        ∃ s w, Reachable p disk input s w ∧ s.sheet.IsEndless)) := by
  refine ⟨?_, ?_, ?_, ?_, exists_stopped_runInput⟩
  · intro f hreaches
    exact hreaches.isSafe
  · intro x hreaches
    rcases x.exists_step p with hstep | hstopped | ⟨f, rfl⟩
    · exact .inr hstep
    · exact .inl hstopped
    · exact hreaches.isSafe.elim
  · intro s rest hreaches
    exact hreaches.isSafe.1.turnsSafely
  · intro text e he
    have hwithin := Equation.parse_blamesWithin (α := Float) p.mostCoefficients text
    rw [he] at hwithin
    have hpart : e.span.IsPartOf (Text.withoutBlanks text.toList) := hwithin
    exact ⟨hpart.source_eq, hpart.isValid_start, hpart.isValid_end, hpart.exists_underline⟩

end PlotSheet.Session
