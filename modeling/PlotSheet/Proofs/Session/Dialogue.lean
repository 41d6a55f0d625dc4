import Mathlib.Logic.Basic
import PlotSheet.Proofs.Text.Cut
import PlotSheet.Session.Dialogue

/-!
# What dialogues lead to

A dialogue is a tree of answers. What holds of its results and of the states it sets whatever the
answers are, and of answers that lead to no end, is stated of the tree, along its steps; a run takes
one path through the tree, so it holds of every run. A run only adds to what was written and saved
before it.

## Main definitions

* `Dialogue.Promise`: what is promised of the states and of an end
* `Dialogue.Yields`: a dialogue keeps a promise, all its results satisfy a predicate, and no answers
  lead to a fault
* `World.asked`: the world after a prompt
* `World.Extends`: more was written and saved

## Main results

* `Dialogue.bind_assoc`, `Dialogue.liftM_ok_bind`: sequences of dialogues
* `Dialogue.yields_bind`, `Dialogue.Yields.askFor`: the results of a sequence, and of a question
* `Dialogue.Yields.run`: the outcome of a run
* `Dialogue.run_bind`, `Dialogue.exists_run_askFor`: the runs of a sequence, and of a question
* `Dialogue.run_extends`: a run adds to its world
-/

namespace PlotSheet.Dialogue

variable {σ α β γ : Type}

/-! ## Sequences -/

theorem bind_assoc (d : Dialogue σ α) (k : α → Dialogue σ β) (l : β → Dialogue σ γ) :
    d >>= k >>= l = d >>= fun a => k a >>= l := by
  change (d.bind k).bind l = d.bind fun a => (k a).bind l
  induction d with
  | done a => rfl
  | put s next ih => exact congrArg (put s) ih
  | say text next ih => exact congrArg (say text) ih
  | tell text next ih => exact congrArg (tell text) (funext ih)
  | ask prompt next ih => exact congrArg (ask prompt) (funext ih)
  | save document next ih => exact congrArg (save document) (funext ih)
  | endless => rfl
  | fault f => rfl

theorem liftM_ok_bind (a : α) (k : α → Dialogue σ β) :
    (liftM (Except.ok a : Except Fault α) : Dialogue σ α) >>= k = k a :=
  rfl

/-! ## All results of a dialogue -/

/-- What is promised of a dialogue besides its results. -/
structure Promise (σ : Type) where
  /-- What holds of every state that is set. -/
  states : σ → Prop
  /-- What holds if there is no end. -/
  endless : Prop

/-- Whatever the answers are, the promise is kept, the result satisfies `post`, and there is no
fault. -/
def Yields (promise : Promise σ) (post : α → Prop) : Dialogue σ α → Prop
  | done a => post a
  | put s next => promise.states s ∧ next.Yields promise post
  | say _ next => next.Yields promise post
  | tell _ next => ∀ told, (next told).Yields promise post
  | ask _ next => ∀ answer, (next answer).Yields promise post
  | save _ next => ∀ saved, (next saved).Yields promise post
  | endless => promise.endless
  | fault _ => False

section Yields

variable {promise : Promise σ} {post : α → Prop}

@[simp] theorem yields_pure {a : α} : (pure a : Dialogue σ α).Yields promise post ↔ post a := Iff.rfl

@[simp] theorem yields_become {s : σ} {post : Unit → Prop} :
    (become s).Yields promise post ↔ promise.states s ∧ post () := Iff.rfl

@[simp] theorem yields_print {text : String} {post : Unit → Prop} :
    (print text : Dialogue σ Unit).Yields promise post ↔ post () := Iff.rfl

@[simp] theorem yields_tryPrint {text : String} {post : Except String Unit → Prop} :
    (tryPrint text : Dialogue σ _).Yields promise post ↔ ∀ told, post told := Iff.rfl

@[simp] theorem yields_prompt {text : String} {post : String → Prop} :
    (prompt text : Dialogue σ _).Yields promise post ↔ ∀ answer, post answer := Iff.rfl

@[simp] theorem yields_saveDocument {document : String}
    {post : Except SaveError String → Prop} :
    (saveDocument document : Dialogue σ _).Yields promise post ↔ ∀ saved, post saved := Iff.rfl

/-- A computation within a dialogue must give a value. -/
theorem yields_lift {x : Except Fault α} :
    (liftM x : Dialogue σ α).Yields promise post ↔ ∃ a, x = .ok a ∧ post a := by
  cases x with
  | ok a => exact ⟨fun h => ⟨a, rfl, h⟩, fun ⟨b, hb, h⟩ => Except.ok.inj hb ▸ h⟩
  | error f => exact ⟨fun h => h.elim, fun ⟨b, hb, _⟩ => nomatch hb⟩

/-- The results of a sequence are those of its second part, from the results of its first. -/
@[simp] theorem yields_bind {d : Dialogue σ α} {k : α → Dialogue σ β} {post : β → Prop} :
    (d >>= k).Yields promise post ↔ d.Yields promise fun a => (k a).Yields promise post := by
  change (d.bind k).Yields promise post ↔ _
  induction d with
  | done a => rfl
  | put s next ih => exact and_congr_right' ih
  | say text next ih => exact ih
  | tell text next ih => exact forall_congr' ih
  | ask prompt next ih => exact forall_congr' ih
  | save document next ih => exact forall_congr' ih
  | endless => rfl
  | fault f => rfl

/-- A dialogue that keeps a promise keeps any weaker one. -/
theorem Yields.weaken {d : Dialogue σ α} {promise' : Promise σ} {post' : α → Prop}
    (h : d.Yields promise post) (hstates : ∀ s, promise.states s → promise'.states s)
    (hendless : promise.endless → promise'.endless) (hpost : ∀ a, post a → post' a) :
    d.Yields promise' post' := by
  induction d with
  | done a => exact hpost a h
  | put s next ih => exact ⟨hstates s h.1, ih h.2⟩
  | say text next ih => exact ih h
  | tell text next ih => exact fun told => ih told (h told)
  | ask prompt next ih => exact fun answer => ih answer (h answer)
  | save document next ih => exact fun saved => ih saved (h saved)
  | endless => exact hendless h
  | fault f => exact h

theorem Yields.mono {d : Dialogue σ α} {post' : α → Prop} (h : d.Yields promise post)
    (hpost : ∀ a, post a → post' a) : d.Yields promise post' :=
  h.weaken (fun _ hs => hs) id hpost

/-- A question yields a blank, a value that was read, or nothing readable. -/
theorem Yields.askFor {text : String} {read : String → Except String α}
    {post : Answer α → Prop} (hblank : post .blank) (hunreadable : post .unreadable)
    (hvalue : ∀ answer a, read answer = .ok a → post (.value a)) :
    (Dialogue.askFor text read : Dialogue σ _).Yields promise post := by
  rw [Dialogue.askFor]
  simp only [yields_bind, yields_prompt]
  intro answer
  split
  · exact hblank
  · cases h : read answer with
    | ok a => exact hvalue answer a h
    | error message =>
      obtain ⟨marked, hmarked⟩ := (Span.isPartOf_whole answer.toList).exists_underline
      simp only [yields_bind]
      exact yields_lift.2 ⟨marked, hmarked, hunreadable⟩

end Yields

/-! ## Runs -/

namespace World

/-- The world after a prompt, whether it was answered or not. -/
def asked (w : World) (prompt : String) : World :=
  { w with console := ⟨(readLine w.console.input).2, w.console.output ++ prompt⟩ }

end World

/-- What an attempt to save leaves behind is its document, nothing if no file was opened, and the
beginning of the document otherwise. -/
theorem Attempt.file?_eq (document : String) (attempt : Attempt) :
    (∀ path, attempt.answer = .ok path → attempt.file? document = some document) ∧
      (∀ reason, attempt.answer = .error (.opening reason) → attempt.file? document = none) ∧
      ∀ e, attempt.answer = .error e → (∀ reason, e ≠ .opening reason) →
        ∃ part, attempt.file? document = some part ∧ part.toList <+: document.toList := by
  match attempt with
  | .saved path =>
    refine ⟨fun _ _ => rfl, ?_, ?_⟩
    · intro reason h
      cases h
    · intro e h
      cases h
  | .failed e kept =>
    refine ⟨?_, ?_, ?_⟩
    · intro path h
      cases h
    · intro reason h
      obtain rfl := Except.error.inj h
      rfl
    · intro e' h hopened
      obtain rfl := Except.error.inj h
      refine ⟨String.ofList (document.toList.take kept), ?_, ?_⟩
      · cases e with
        | opening reason => exact absurd rfl (hopened reason)
        | writing reason => rfl
        | completing reason => rfl
      · rw [String.toList_ofList]
        exact List.take_prefix kept _

/-- At least as much was written and saved as before. -/
def World.Extends (later earlier : World) : Prop :=
  (∃ text, later.console.output = earlier.console.output ++ text) ∧ earlier.files <+: later.files

namespace World.Extends

variable {u v w : World}

theorem refl (w : World) : w.Extends w :=
  ⟨⟨"", String.append_empty.symm⟩, List.prefix_refl _⟩

theorem trans (h : w.Extends v) (h' : v.Extends u) : w.Extends u := by
  obtain ⟨⟨text, htext⟩, hfiles⟩ := h
  obtain ⟨⟨text', htext'⟩, hfiles'⟩ := h'
  refine ⟨⟨text' ++ text, ?_⟩, hfiles'.trans hfiles⟩
  rw [htext, htext', String.append_assoc]

theorem told (w : World) (text : String) : (w.told text).Extends w :=
  ⟨⟨text, rfl⟩, List.prefix_refl _⟩

theorem asked (w : World) (prompt : String) : (w.asked prompt).Extends w :=
  ⟨⟨prompt, rfl⟩, List.prefix_refl _⟩

theorem save (disk : Disk) (w : World) (document : String) :
    (w.save disk document).2.Extends w :=
  ⟨⟨"", String.append_empty.symm⟩, List.prefix_append ..⟩

end World.Extends

section Runs

variable (disk : Disk)

theorem run_say (text : String) (next : Dialogue σ α) (s : σ) (w : World) :
    (say text next).run disk s w = next.run disk s (w.told text) :=
  rfl

theorem run_save (document : String) (next : Except SaveError String → Dialogue σ α) (s : σ)
    (w : World) :
    (save document next).run disk s w =
      (next (w.save disk document).1).run disk s (w.save disk document).2 :=
  rfl

theorem run_ask (prompt : String) (next : String → Dialogue σ α) (s : σ) (w : World) :
    (ask prompt next).run disk s w =
      match (readLine w.console.input).1 with
      | .ok answer => (next answer).run disk s (w.asked prompt)
      | .error e => (.interrupted e, s, w.asked prompt) := by
  rw [run, Console.ask, World.asked]
  rcases readLine w.console.input with ⟨answer | e, rest⟩
  · rfl
  · rfl

/-- The run of a sequence runs the second part where the first one ended. -/
theorem run_bind (d : Dialogue σ α) (k : α → Dialogue σ β) (s : σ) (w : World) :
    (d >>= k).run disk s w =
      match d.run disk s w with
      | (.done a, s', w') => (k a).run disk s' w'
      | (.interrupted e, s', w') => (.interrupted e, s', w')
      | (.endless, s', w') => (.endless, s', w')
      | (.fault f, s', w') => (.fault f, s', w') := by
  change (d.bind k).run disk s w = _
  induction d generalizing s w with
  | done a => rfl
  | put s' next ih => exact ih _ _
  | say text next ih => exact ih _ _
  | tell text next ih => exact ih _ _ _
  | ask prompt next ih =>
    rw [bind, run_ask, run_ask]
    cases (readLine w.console.input).1 with
    | ok answer => exact ih answer _ _
    | error e => rfl
  | save document next ih => exact ih _ _ _
  | endless => rfl
  | fault f => rfl

/-- What an answer is read as. -/
def answerOf (read : String → Except String α) (answer : String) : Answer α :=
  if answer.isEmpty then .blank
  else
    match read answer with
    | .ok a => .value a
    | .error _ => .unreadable

/-- A question reads one line, whatever it makes of it, and leaves the state alone. -/
theorem exists_run_askFor (text : String) (read : String → Except String α) (s : σ) (w : World) :
    ∃ w', w'.console.input = (readLine w.console.input).2 ∧
      (askFor text read).run disk s w =
        match (readLine w.console.input).1 with
        | .ok answer => (.done (answerOf read answer), s, w')
        | .error e => (.interrupted e, s, w') := by
  rw [askFor, run_bind]
  unfold prompt
  rw [run_ask]
  cases (readLine w.console.input).1 with
  | error e => exact ⟨_, rfl, rfl⟩
  | ok answer =>
    dsimp only [run, answerOf]
    cases answer.isEmpty with
    | true => exact ⟨_, rfl, rfl⟩
    | false =>
      cases read answer with
      | ok a => exact ⟨_, rfl, rfl⟩
      | error message =>
        obtain ⟨marked, hmarked⟩ := (Span.isPartOf_whole answer.toList).exists_underline
        dsimp only
        rw [hmarked]
        exact ⟨_, rfl, rfl⟩

/-- A run adds to what was written and saved. -/
theorem run_extends (d : Dialogue σ α) (s : σ) (w : World) :
    (d.run disk s w).2.2.Extends w := by
  induction d generalizing s w with
  | done a => exact .refl w
  | put s' next ih => exact ih _ _
  | say text next ih => exact (ih _ _).trans (.told w text)
  | tell text next ih => exact (ih _ _ _).trans (.told w text)
  | ask prompt next ih =>
    rw [run_ask]
    split
    · exact (ih _ _ _).trans (.asked w prompt)
    · exact .asked w prompt
  | save document next ih => exact (ih _ _ _).trans (.save disk w document)
  | endless => exact .refl w
  | fault f => exact .refl w

/-- A run keeps the promise, and ends with what all results satisfy if it ends. -/
structure Kept (promise : Promise σ) (post : α → Prop) (ended : Outcome α × σ × World) : Prop where
  result : ∀ a, ended.1 = .done a → post a
  state : promise.states ended.2.1
  endless : ended.1 = .endless → promise.endless
  ne_fault : ∀ f, ended.1 ≠ .fault f

/-- **What a dialogue yields, its runs keep**, from any state that satisfies what is promised of
states. -/
theorem Yields.run {d : Dialogue σ α} {promise : Promise σ} {post : α → Prop}
    (h : d.Yields promise post) {s : σ} (hs : promise.states s) (w : World) :
    Kept promise post (d.run disk s w) := by
  induction d generalizing s w with
  | done a =>
    exact ⟨fun b hb => Outcome.done.inj hb ▸ h, hs, fun h => (nomatch h), fun f hf => nomatch hf⟩
  | put s' next ih => exact ih h.2 h.1 _
  | say text next ih => exact ih h hs _
  | tell text next ih => exact ih _ (h _) hs _
  | ask prompt next ih =>
    rw [run_ask]
    split
    · next answer _ => exact ih answer (h answer) hs _
    · exact ⟨fun a ha => (nomatch ha), hs, fun h => (nomatch h), fun f hf => nomatch hf⟩
  | save document next ih => exact ih _ (h _) hs _
  | endless => exact ⟨fun a ha => (nomatch ha), hs, fun _ => h, fun f hf => nomatch hf⟩
  | fault f => exact h.elim

end Runs

end PlotSheet.Dialogue
