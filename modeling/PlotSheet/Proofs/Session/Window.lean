import PlotSheet.Proofs.Session.Reachable

/-!
# Setting the window

The window command asks for the six parts of the window one after the other. It replaces all parts
that were answered, or none: one answer that cannot be read, the end of the input, or ranges that
make no valid window leave the state of the session as it was.

## Main definitions

* `answers`: the next lines of an input
* `answeredWindow?`: a window with six answers put in
* `State.offered`: a state after a window was offered, which is taken if it is valid

## Main results

* `setWindow_offers`: the window that the window command offers
* `stateAfter_setWindow`: the window command is all or nothing, and windows stay valid
-/

namespace PlotSheet.Session

open Dialogue

/-! ## Answers -/

/-- The answers to the next `n` prompts. -/
def answers : (n : Nat) → List UInt8 → List (Except InputError String)
  | 0, _ => []
  | n + 1, input => (readLine input).1 :: answers n (readLine input).2

/-- The value of a part after an answer: the old one if the answer is blank, and none if there is
no answer or it cannot be read. -/
def answered? {α : Type} (read : String → Except String α) (old : α) :
    Except InputError String → Option α
  | .ok answer => if answer.isEmpty then some old else (read answer).toOption
  | .error _ => none

/-- The window with six answers put in, if there are six that can be read. -/
def answeredWindow? (v : Viewport Float) : List (Except InputError String) →
    Option (Viewport Float)
  | [xMin, xMax, yMin, yMax, width, height] => do
    let left ← answered? readNumber v.x.start xMin
    let right ← answered? readNumber v.x.stop xMax
    let bottom ← answered? readNumber v.y.start yMin
    let top ← answered? readNumber v.y.stop yMax
    let width ← answered? readSize v.frame.width width
    let height ← answered? readSize v.frame.height height
    return ⟨⟨left, right⟩, ⟨bottom, top⟩, { v.frame with width := width, height := height }⟩
  | _ => none

/-! ## Offers -/

/-- The state with the window that is offered, if there is one and it is valid. -/
def State.offered (s : State) (window? : Option (Viewport Float)) : State :=
  { s with window := (window?.filter (·.IsValid)).getD s.window }

theorem State.offered_of_isValid {v : Viewport Float} (h : v.IsValid) (s : State) :
    s.offered (some v) = { s with window := v } := by
  rw [offered, Option.filter_some, if_pos (decide_eq_true h)]
  rfl

theorem State.offered_of_not_isValid {v : Viewport Float} (h : ¬ v.IsValid) (s : State) :
    s.offered (some v) = s := by
  rw [offered, Option.filter_some, if_neg (by simpa using h)]
  rfl

/-- A dialogue from `s` offers a window that depends on the input alone, however it ends. -/
def Offers (s : State) (d : Dialogue State Unit)
    (window? : List UInt8 → Option (Viewport Float)) : Prop :=
  ∀ disk w, (d.run disk s w).2.1 = s.offered (window? w.console.input)

variable {s : State}

theorem Offers.print {d : Dialogue State Unit} {window? : List UInt8 → Option (Viewport Float)}
    (h : Offers s d window?) (text : String) :
    Offers s (Dialogue.print text >>= fun _ => d) window? :=
  fun disk w => h disk (w.told text)

/-- The question for a part goes on with the value that the answer gives, or offers nothing. -/
theorem offers_askPart {α : Type} {name current : String} {read : String → Except String α}
    {old : α} {k : Option α → Dialogue State Unit}
    {window? : α → List UInt8 → Option (Viewport Float)}
    (hnone : k none = pure ()) (hsome : ∀ a, Offers s (k (some a)) (window? a)) :
    Offers s (askPart name current read old >>= k) fun input =>
      (answered? read old (readLine input).1).bind fun a => window? a (readLine input).2 := by
  intro disk w
  obtain ⟨w', hinput, hrun⟩ := exists_run_askFor disk s!"?{name} (is {current}) = " read s w
  rw [run_bind, askPart, run_bind, hrun]
  dsimp only
  rw [← hinput]
  cases (readLine w.console.input).1 with
  | error e => rfl
  | ok answer =>
    dsimp only [answerOf, answered?]
    cases answer.isEmpty with
    | true => exact hsome old disk w'
    | false =>
      cases read answer with
      | ok a => exact hsome a disk w'
      | error message =>
        have hrest : (k none).run disk s w' = (.done (), s, w') := by
          rw [hnone]
          rfl
        exact congrArg (fun ended => ended.2.1) hrest

/-- The window command offers the window that the answers to its prompts make. -/
theorem setWindow_offers (s : State) :
    Offers s (setWindow s) fun input => answeredWindow? s.window (answers 6 input) := by
  have hlast (v : Viewport Float) :
      Offers s
        (if v.IsValid then become { s with window := v }
        else Dialogue.print
          "error: ranges must be finite with min < max, and width and height nonzero\n")
        fun _ => some v := by
    intro disk w
    by_cases hvalid : v.IsValid
    · rw [if_pos hvalid, s.offered_of_isValid hvalid]
      rfl
    · rw [if_neg hvalid, s.offered_of_not_isValid hvalid]
      rfl
  have hsteps : Offers s (setWindow s) _ :=
    .print (offers_askPart rfl fun left => offers_askPart rfl fun right =>
      offers_askPart rfl fun bottom => offers_askPart rfl fun top =>
      .print (offers_askPart rfl fun width => offers_askPart rfl fun height =>
        hlast ⟨⟨left, right⟩, ⟨bottom, top⟩,
          { s.window.frame with width := width, height := height }⟩) _) _
  exact hsteps

/-- **The window command is all or nothing.** In every state of a session the window is valid and
lies at the corner of the canvas. Whatever the answers are, and wherever the input ends, the window
command leaves a state behind that differs at most in its window, which got all answers if all six
can be read and make a valid window. -/
theorem stateAfter_setWindow {p : Platform} {disk : Disk} {input : List UInt8} {s : State}
    {w : World} (h : Reachable p disk input s w) (w' : World) :
    s.window.IsValid ∧ s.window.frame.x = 0 ∧ s.window.frame.y = 0 ∧
      ((setWindow s).run disk s w').2.1 =
        s.offered (answeredWindow? s.window (answers 6 w'.console.input)) :=
  ⟨h.isSound.isValid, h.isSound.left, h.isSound.top, setWindow_offers s disk w'⟩

/-- Four blanks and a pair of sizes change the sizes; an answer that is no number, and an input that
ends ahead of the last answer, change nothing. -/
theorem stateAfter_setWindow_sizes :
    ((setWindow (.initial .standard)).run (fun _ => .saved "plot.svg") (.initial .standard)
        ⟨⟨"\n\n\n\n30\n20\n".toUTF8.data.toList, ""⟩, 0, []⟩).2.1.window =
        ⟨⟨-10, 10⟩, ⟨-10, 10⟩, ⟨0, 0, 30, 20⟩⟩ ∧
      ((setWindow (.initial .standard)).run (fun _ => .saved "plot.svg") (.initial .standard)
        ⟨⟨"\n\n\n\n30\nx\n".toUTF8.data.toList, ""⟩, 0, []⟩).2.1.window = .initial ∧
      ((setWindow (.initial .standard)).run (fun _ => .saved "plot.svg") (.initial .standard)
        ⟨⟨"\n\n\n\n30\n".toUTF8.data.toList, ""⟩, 0, []⟩).2.1.window = .initial := by
  have hinitial : Reachable .standard (fun _ => .saved "plot.svg") [] (.initial .standard)
      ⟨⟨[], ""⟩, 0, []⟩ := .initial
  have hstate (input : List UInt8) := (stateAfter_setWindow hinitial ⟨⟨input, ""⟩, 0, []⟩).2.2.2
  rw [hstate, hstate, hstate]
  decide +kernel

end PlotSheet.Session
