import PlotSheet.Proofs.Session.Line
import PlotSheet.Proofs.Session.Reachable

/-!
# Sessions do not look ahead

What a session does up to the end of its input, or up to the end of the session if that comes
first, does not depend on what follows the input. Input that follows a complete one is put behind
what is left of it in the world, and stays there untouched while a dialogue runs; only a dialogue
that the end of its input cut short goes on, and then it adds to what it had written and saved. A
session that does not come to an end on some input does not on any longer one either.

## Main definitions

* `World.feed`: a world with more input

## Main results

* `run_feed`, `run_feed_extends`: a dialogue with more input
* `turns_feed`, `turns_feed_extends`: the turns of a session with more input
* `transcript_append`: a session on an input is the beginning of the one on any longer input
-/

namespace PlotSheet

/-! ## Dialogues with more input -/

namespace Dialogue

namespace World

/-- The world with more input behind what is left. -/
def feed (w : World) (more : List UInt8) : World :=
  { w with console := { w.console with input := w.console.input ++ more } }

variable {w : World} {more : List UInt8}

theorem feed_extends : (w.feed more).Extends w :=
  .refl w

theorem feed_length_lt {w' : World} (h : w'.console.input.length < w.console.input.length) :
    (w'.feed more).console.input.length < (w.feed more).console.input.length := by
  rw [feed, feed, List.length_append, List.length_append]
  exact Nat.add_lt_add_right h more.length

theorem asked_feed_extends (prompt : String) :
    ((w.feed more).asked prompt).Extends (w.asked prompt) :=
  .refl (w.asked prompt)

theorem asked_feed (h : EndsLine w.console.input) (hne : w.console.input ≠ []) (prompt : String) :
    (w.feed more).asked prompt = (w.asked prompt).feed more := by
  rw [asked, feed, readLine_append h hne]
  rfl

end World

variable {σ α : Type} (disk : Disk) {w : World} (more : List UInt8)

/-- A run reads whole lines. -/
theorem run_endsLine (d : Dialogue σ α) (s : σ) (h : EndsLine w.console.input) :
    EndsLine (d.run disk s w).2.2.console.input := by
  induction d generalizing s w with
  | done a => exact h
  | put s' next ih => exact ih _ h
  | say text next ih => exact ih _ h
  | tell text next ih => exact ih _ _ h
  | ask prompt next ih =>
    rw [run_ask]
    split
    · exact ih _ _ h.readLine_snd
    · exact h.readLine_snd
  | save document next ih => exact ih _ _ h
  | endless => exact h
  | fault f => exact h

theorem run_length_le (d : Dialogue σ α) (s : σ) (w : World) :
    (d.run disk s w).2.2.console.input.length ≤ w.console.input.length := by
  induction d generalizing s w with
  | done a => exact Nat.le_refl _
  | put s' next ih => exact ih _ _
  | say text next ih => exact ih _ _
  | tell text next ih => exact ih _ _ _
  | ask prompt next ih =>
    have hle := readLine_snd_length_le w.console.input
    rw [run_ask]
    split
    · exact Nat.le_trans (ih _ _ _) hle
    · exact hle
  | save document next ih => exact ih _ _ _
  | endless => exact Nat.le_refl _
  | fault f => exact Nat.le_refl _

/-- A question before the end of the input gets the same answer with more input. -/
theorem run_ask_feed (h : EndsLine w.console.input) (hne : w.console.input ≠ [])
    (prompt : String) (next : String → Dialogue σ α) (s : σ) :
    (ask prompt next).run disk s (w.feed more) =
      match (readLine w.console.input).1 with
      | .ok answer => (next answer).run disk s ((w.asked prompt).feed more)
      | .error e => (.interrupted e, s, (w.asked prompt).feed more) := by
  have hread : (readLine (w.feed more).console.input).1 = (readLine w.console.input).1 :=
    (congrArg Prod.fst (readLine_append h hne more) :)
  have hrun := run_ask disk prompt next s (w.feed more)
  rw [hread, World.asked_feed h hne] at hrun
  exact hrun

/-- A run that does not come to the end of its input does not depend on what follows. -/
theorem run_feed (d : Dialogue σ α) (s : σ) (h : EndsLine w.console.input)
    (hended : (d.run disk s w).1 ≠ .interrupted .endOfInput) :
    d.run disk s (w.feed more) =
      ((d.run disk s w).1, (d.run disk s w).2.1, (d.run disk s w).2.2.feed more) := by
  induction d generalizing s w with
  | done a => rfl
  | put s' next ih => exact ih _ h hended
  | say text next ih => exact ih _ (w := w.told text) h hended
  | tell text next ih => exact ih _ _ (w := w.told text) h hended
  | ask prompt next ih =>
    have hne : w.console.input ≠ [] := by
      intro hnil
      rw [run_ask, readLine_eq_endOfInput_iff.2 hnil] at hended
      exact hended rfl
    rw [run_ask] at hended
    rw [run_ask_feed disk more h hne, run_ask]
    cases hread : (readLine w.console.input).1 with
    | ok answer =>
      rw [hread] at hended
      exact ih answer _ h.readLine_snd hended
    | error e => rfl
  | save document next ih =>
    rw [run_save] at hended
    exact ih (w.save disk document).1 _ (w := (w.save disk document).2) h hended
  | endless => rfl
  | fault f => rfl

/-- With more input, a run adds to what it wrote and saved before. -/
theorem run_feed_extends (d : Dialogue σ α) (s : σ) (h : EndsLine w.console.input) :
    (d.run disk s (w.feed more)).2.2.Extends (d.run disk s w).2.2 := by
  induction d generalizing s w with
  | done a => exact World.feed_extends
  | put s' next ih => exact ih _ h
  | say text next ih => exact ih _ (w := w.told text) h
  | tell text next ih => exact ih _ _ (w := w.told text) h
  | ask prompt next ih =>
    by_cases hne : w.console.input = []
    · -- the prompt at which the input ended is answered now
      rw [run_ask disk prompt next s w, readLine_eq_endOfInput_iff.2 hne, run_ask]
      split
      · exact (run_extends disk _ _ _).trans (World.asked_feed_extends prompt)
      · exact World.asked_feed_extends prompt
    · rw [run_ask_feed disk more h hne, run_ask]
      cases (readLine w.console.input).1 with
      | ok answer => exact ih answer _ h.readLine_snd
      | error e => exact World.feed_extends
  | save document next ih =>
    exact ih (w.save disk document).1 _ (w := (w.save disk document).2) h
  | endless => exact World.feed_extends
  | fault f => exact World.feed_extends

end Dialogue

/-! ## Sessions with more input -/

namespace Session

open Dialogue

variable {p : Platform} {disk : Disk} {s : State} {w : World} {more : List UInt8}

/-- A turn that is carried out to its end reads at least one byte. -/
theorem turn_length_lt {goesOn : Bool} {s' : State} {w' : World}
    (hturn : (turn p s).run disk s w = (.done goesOn, s', w')) :
    w'.console.input.length < w.console.input.length := by
  rw [turn_eq, run_say, run_ask] at hturn
  by_cases hne : w.console.input = []
  · rw [readLine_eq_endOfInput_iff.2 (show (w.told _).console.input = [] from hne)] at hturn
    cases hturn
  · split at hturn
    · next line _ =>
      have hle := run_length_le disk (.say "\n" (respond p s line)) s
        ((w.told (header s.sheet)).asked "> ")
      rw [hturn] at hle
      exact Nat.lt_of_le_of_lt hle (readLine_snd_length_lt hne)
    · cases hturn

/-- A turn leads to the next one, or it is the last. -/
theorem turns_succ (fuel : Nat) (s : State) (w : World) :
    turns p disk (fuel + 1) s w =
      match (turn p s).run disk s w with
      | (.done true, s', w') => turns p disk fuel s' w'
      | (.done false, s', w') => (.quit, s', w')
      | (.interrupted e, s', w') => (.interrupted e, s', w')
      | (.endless, s', w') => (.endless, s', w')
      | (.fault f, s', w') => (.fault f, s', w') :=
  rfl

/-- The turns of a session add to what was written and saved before. -/
theorem turns_extends (fuel : Nat) (s : State) (w : World) :
    (turns p disk fuel s w).2.2.Extends w := by
  induction fuel generalizing s w with
  | zero => exact .refl w
  | succ fuel ih =>
    have hturn := run_extends disk (turn p s) s w
    rw [turns_succ]
    generalize (turn p s).run disk s w = ended at hturn
    rcases ended with ⟨(- | -) | e | - | f, s', w'⟩
    · exact hturn
    · exact (ih s' w').trans hturn
    · exact hturn
    · exact hturn
    · exact hturn

theorem turns_extends_turn (fuel : Nat) (s : State) (w : World) :
    (turns p disk (fuel + 1) s w).2.2.Extends ((turn p s).run disk s w).2.2 := by
  rw [turns_succ]
  rcases (turn p s).run disk s w with ⟨(- | -) | e | - | f, s', w'⟩
  · exact .refl w'
  · exact turns_extends fuel s' w'
  · exact .refl w'
  · exact .refl w'
  · exact .refl w'

/-- A session that does not come to the end of its input does not depend on what follows. -/
theorem turns_feed {fuel fuel' : Nat} (h : EndsLine w.console.input)
    (hfuel : w.console.input.length < fuel)
    (hfuel' : (w.feed more).console.input.length < fuel')
    (hended : (turns p disk fuel s w).1 ≠ .interrupted .endOfInput) :
    turns p disk fuel' s (w.feed more) =
      ((turns p disk fuel s w).1, (turns p disk fuel s w).2.1,
        (turns p disk fuel s w).2.2.feed more) := by
  induction fuel generalizing fuel' s w with
  | zero => exact absurd hfuel (Nat.not_lt_zero _)
  | succ fuel ih =>
    obtain ⟨fuel', rfl⟩ := Nat.exists_eq_add_one_of_ne_zero (Nat.ne_zero_of_lt hfuel')
    have hfeed := run_feed disk more (turn p s) s h
    have hlines := run_endsLine disk (turn p s) s h
    rw [turns_succ] at hended
    rw [turns_succ, turns_succ]
    rcases hrun : (turn p s).run disk s w with ⟨o, s', w'⟩
    rw [hrun] at hended hfeed hlines
    rcases o with (- | -) | e | - | f
    · rw [hfeed fun h => nomatch h]
    · have hlt := turn_length_lt hrun
      have hlt' : _ < (w.feed more).console.input.length := World.feed_length_lt hlt
      rw [hfeed fun h => nomatch h]
      exact ih (w := w') hlines (by omega) (by omega) hended
    · rw [hfeed fun h => hended (by cases h; rfl)]
    · rw [hfeed fun h => nomatch h]
    · rw [hfeed fun h => nomatch h]

/-- With more input, a session adds to what it wrote and saved before. -/
theorem turns_feed_extends {fuel fuel' : Nat} (h : EndsLine w.console.input)
    (hfuel : w.console.input.length < fuel)
    (hfuel' : (w.feed more).console.input.length < fuel') :
    (turns p disk fuel' s (w.feed more)).2.2.Extends (turns p disk fuel s w).2.2 := by
  induction fuel generalizing fuel' s w with
  | zero => exact absurd hfuel (Nat.not_lt_zero _)
  | succ fuel ih =>
    obtain ⟨fuel', rfl⟩ := Nat.exists_eq_add_one_of_ne_zero (Nat.ne_zero_of_lt hfuel')
    have hturn := (turns_extends_turn fuel' s (w.feed more)).trans
      (run_feed_extends disk more (turn p s) s h)
    have hfeed := run_feed disk more (turn p s) s h
    have hlines := run_endsLine disk (turn p s) s h
    rw [turns_succ fuel]
    rcases hrun : (turn p s).run disk s w with ⟨o, s', w'⟩
    rw [hrun] at hturn hfeed hlines
    rcases o with (- | -) | e | - | f
    · exact hturn
    · have hlt := turn_length_lt hrun
      have hlt' : _ < (w.feed more).console.input.length := World.feed_length_lt hlt
      rw [turns_succ fuel', hfeed fun h => nomatch h]
      exact ih (w := w') hlines (by omega) (by omega)
    · exact hturn
    · exact hturn
    · exact hturn

section Transcript

variable (p : Platform) (disk : Disk) {input : List UInt8} (more : List UInt8)

/-- A session that does not come to the end of its input does not depend on what follows. -/
theorem runInput_append (h : EndsLine input)
    (hended : (runInput p disk input).1 ≠ .interrupted .endOfInput) :
    runInput p disk (input ++ more) =
      ((runInput p disk input).1, (runInput p disk input).2.1,
        (runInput p disk input).2.2.feed more) :=
  turns_feed (w := ⟨⟨input, ""⟩, 0, []⟩) h (Nat.lt_succ_self _) (Nat.lt_succ_self _) hended

theorem runInput_append_extends (h : EndsLine input) :
    (runInput p disk (input ++ more)).2.2.Extends (runInput p disk input).2.2 :=
  turns_feed_extends (w := ⟨⟨input, ""⟩, 0, []⟩) h (Nat.lt_succ_self _) (Nat.lt_succ_self _)

theorem transcript_eq (input : List UInt8) :
    transcript p disk input =
      ⟨(runInput p disk input).2.2.console.output ++ (runInput p disk input).1.farewell,
        (runInput p disk input).1.errors, (runInput p disk input).1.status,
        (runInput p disk input).2.2.files⟩ :=
  rfl

end Transcript

/-- **A session on a complete input is the beginning of the session on any longer one**, if it comes
to an end. If it is told to quit, or stopped by a line that is not UTF-8, the longer input changes
nothing. Otherwise it stops at the prompt where the input ends, which is regular: what was written
up to there, all but the last newline, and what was saved are the beginning of what the longer input
leads to. -/
theorem transcript_append (p : Platform) (disk : Disk) {input : List UInt8} (h : EndsLine input)
    (hends : (runInput p disk input).1 ≠ .endless) (more : List UInt8) :
    (((runInput p disk input).1 = .quit ∨ (runInput p disk input).1 = .interrupted .notUtf8) ∧
        transcript p disk (input ++ more) = transcript p disk input) ∨
      ((runInput p disk input).1 = .interrupted .endOfInput ∧
        (transcript p disk input).errors = "" ∧ (transcript p disk input).status = some 0 ∧
        ∃ said, (transcript p disk input).output = said ++ "\n" ∧
          (∃ text, (transcript p disk (input ++ more)).output = said ++ text) ∧
          (transcript p disk input).files <+: (transcript p disk (input ++ more)).files) := by
  have hsame (hended : (runInput p disk input).1 ≠ .interrupted .endOfInput) :
      transcript p disk (input ++ more) = transcript p disk input := by
    rw [transcript_eq, runInput_append p disk more h hended]
    rfl
  obtain ⟨⟨text, htext⟩, hfiles⟩ := runInput_append_extends p disk more h
  cases hending : (runInput p disk input).1 with
  | quit => exact .inl ⟨.inl rfl, hsame (by rw [hending]; exact fun h => nomatch h)⟩
  | interrupted e =>
    cases e with
    | notUtf8 => exact .inl ⟨.inr rfl, hsame (by rw [hending]; exact fun h => nomatch h)⟩
    | endOfInput =>
      rw [transcript_eq p disk input, transcript_eq p disk (input ++ more), hending]
      refine .inr ⟨rfl, rfl, rfl, (runInput p disk input).2.2.console.output, rfl, ?_, hfiles⟩
      dsimp only
      rw [htext, String.append_assoc]
      exact ⟨_, rfl⟩
  | endless => exact absurd hending hends
  | fault f => exact absurd hending ((turns_kept (State.isSound_initial p) _ _).2 f)

/-- The input may end where an equation is asked for. -/
theorem transcript_append_before_equation :
    EndsLine "add\n".toUTF8.data.toList ∧
      (runInput .standard (fun _ => .saved "plot.svg") "add\n".toUTF8.data.toList).1 ≠ .endless ∧
      ∃ said, (transcript .standard (fun _ => .saved "plot.svg")
          "add\n".toUTF8.data.toList).output = said ++ "\n" ∧
        ∃ text, (transcript .standard (fun _ => .saved "plot.svg")
          ("add\n".toUTF8.data.toList ++ "y=x\nquit\n".toUTF8.data.toList)).output =
            said ++ text := by
  have h : EndsLine "add\n".toUTF8.data.toList := by decide +kernel
  have hends : (runInput .standard (fun _ => .saved "plot.svg")
      "add\n".toUTF8.data.toList).1 ≠ .endless := by decide +kernel
  refine ⟨h, hends, ?_⟩
  rcases transcript_append .standard (fun _ => .saved "plot.svg") h hends
      "y=x\nquit\n".toUTF8.data.toList with ⟨-, hsame⟩ | ⟨-, -, -, said, hsaid, hprefix, -⟩
  · exact absurd (congrArg Transcript.output hsame) (by decide +kernel)
  · exact ⟨said, hsaid, hprefix⟩

end Session

end PlotSheet
