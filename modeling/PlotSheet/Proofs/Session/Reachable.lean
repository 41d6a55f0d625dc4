import PlotSheet.Proofs.Session.Turn
import PlotSheet.Session.Run

/-!
# The states of a session

A session goes from state to state by turns that are carried out to their end. All its states are
sound, the one in which it stops included, and no session ends with a fault.

## Main definitions

* `Reachable`: the states between the turns of a session, with what is left of its world

## Main results

* `Reachable.isSound`: all states of a session are sound
* `turns_kept`: so is the state in which a session stops, and no session ends with a fault
* `exists_isEndless_of_turns`: a session that does not end has a curve without a last point
-/

namespace PlotSheet.Session

open Dialogue

/-- The states of the session on an input, each with its world. -/
inductive Reachable (p : Platform) (disk : Disk) (input : List UInt8) : State → World → Prop
  | initial : Reachable p disk input (.initial p) ⟨⟨input, ""⟩, 0, []⟩
  | step {s s' : State} {w w' : World} (h : Reachable p disk input s w)
      (hturn : (turn p s).run disk s w = (.done true, s', w')) : Reachable p disk input s' w'

theorem State.isSound_initial (p : Platform) : (State.initial p).IsSound p where
  isFaithful := Sheet.IsFaithful.add (fun _ he => (List.not_mem_nil he).elim) _
  isValid := show (Viewport.initial : Viewport Float).IsValid by decide
  left := rfl
  top := rfl

variable {p : Platform} {disk : Disk} {input : List UInt8} {s : State} {w : World}

/-- A turn from a sound state leaves a sound state behind, however it ends. -/
theorem State.IsSound.run_turn (h : s.IsSound p) (disk : Disk) (w : World) :
    Kept (s.promise p) (fun _ => True) ((turn p s).run disk s w) :=
  (turn_yields h).run disk h w

/-- All states of a session are sound. -/
theorem Reachable.isSound (h : Reachable p disk input s w) : s.IsSound p := by
  induction h with
  | initial => exact State.isSound_initial p
  | @step s s' w w' h hturn ih =>
    have hsound := (ih.run_turn disk w).state
    rw [hturn] at hsound
    exact hsound

/-- From a sound state a session is left in a sound state, wherever it stops, and not by a fault. -/
theorem turns_kept (h : s.IsSound p) (fuel : Nat) (w : World) :
    (turns p disk fuel s w).2.1.IsSound p ∧ ∀ f, (turns p disk fuel s w).1 ≠ .fault f := by
  induction fuel generalizing s w with
  | zero => exact ⟨h, fun f hf => nomatch hf⟩
  | succ fuel ih =>
    have hturn := h.run_turn disk w
    rw [turns]
    rcases hrun : (turn p s).run disk s w with ⟨o, s', w'⟩
    rw [hrun] at hturn
    rcases o with (- | -) | e | - | g
    · exact ⟨hturn.state, fun f hf => nomatch hf⟩
    · exact ih hturn.state _
    · exact ⟨hturn.state, fun f hf => nomatch hf⟩
    · exact ⟨hturn.state, fun f hf => nomatch hf⟩
    · exact absurd rfl (hturn.ne_fault g)

/-- A session that does not end has come to a state with a curve that has no last point. -/
theorem exists_isEndless_of_turns (h : Reachable p disk input s w) (fuel : Nat)
    (hendless : (turns p disk fuel s w).1 = .endless) :
    ∃ s' w', Reachable p disk input s' w' ∧ s'.sheet.IsEndless := by
  induction fuel generalizing s w with
  | zero => cases hendless
  | succ fuel ih =>
    have hturn := h.isSound.run_turn disk w
    rw [turns] at hendless
    rcases hrun : (turn p s).run disk s w with ⟨o, s', w'⟩
    rw [hrun] at hturn hendless
    rcases o with (- | -) | e | - | g
    · cases hendless
    · exact ih (h.step hrun) hendless
    · cases hendless
    · exact ⟨s, w, h, hturn.endless rfl⟩
    · cases hendless

end PlotSheet.Session
