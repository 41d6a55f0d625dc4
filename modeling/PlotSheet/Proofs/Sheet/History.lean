import Mathlib.Data.List.Induction
import Mathlib.Data.List.InsertIdx
import Mathlib.Data.List.Nodup
import Mathlib.Data.List.Range
import PlotSheet.Proofs.Sheet.Change

/-!
# What a history makes of a sheet

The equations of a history are numbered as they are added, and keep their number while removals move
them to other indices. An index stands for the equation that has this place among those added and
not removed so far. The log of a history notes what happens to which equation, and the sheet is what
the log dictates: each entry follows from the events of its own equation.

## Main definitions

* `log`: what a history makes happen to which equation
* `present`, `eventsOf`: the equations of the sheet, and the events of one of them
* `dictated`: the entry that the events of an equation dictate

## Main results

* `dictated_append_singleton`: an entry changes with each event of its equation
* `Follows.change`: a sheet that follows a log goes on following it
* `after_eq_dictated`: the sheet after a history is what the log dictates, and no change touches an
  entry that it is not addressed to
-/

namespace PlotSheet

namespace History

/-- Whether a text is an equation. -/
def isEquation (most : Nat) (text : String) : Bool :=
  (Equation.parse (α := Float) most text).isOk

/-- The last text given by the events of an equation. -/
def lastText (events : List Event) : String :=
  (events.filterMap Event.text?).getLastD ""

/-- The last color given by the events of an equation. -/
def lastColor (events : List Event) : Rgb :=
  (events.filterMap Event.color?).getLastD .initial

/-- The number of toggles that occurred while the text was an equation. -/
def toggleCount (most : Nat) (events : List Event) : Nat :=
  (List.range events.length).countP fun i =>
    events[i]? == some .toggled && isEquation most (lastText (events.take i))

/-- The entry that the events of an equation dictate. -/
def dictated (most : Nat) (events : List Event) : Entry where
  text := lastText events
  reading := Equation.parse most (lastText events)
  color := lastColor events
  shown := toggleCount most events % 2 == 0

/-- The number of equations that were added. -/
def addedCount (log : List (Nat × Event)) : Nat :=
  log.countP fun e => e.2.isAdded

/-- The numbers of the equations that were added and not removed, in order of addition. -/
def present (log : List (Nat × Event)) : List Nat :=
  (List.range (addedCount log)).filter fun k => (k, Event.removed) ∉ log

/-- The events of one equation, in order. -/
def eventsOf (log : List (Nat × Event)) (k : Nat) : List Event :=
  (log.filter fun e => e.1 = k).map Prod.snd

/-- The equation that a change is addressed to: a new one, or the one with its index. -/
def addressee (log : List (Nat × Event)) (c : Change) : Option Nat :=
  match c.index? with
  | none => some (addedCount log)
  | some i => (present log)[i]?

/-- The log with what a change makes happen. -/
def record (log : List (Nat × Event)) (c : Change) : List (Nat × Event) :=
  match addressee log c with
  | some k => log ++ [(k, c.event)]
  | none => log

/-- The log of a history. -/
def log (history : List Change) : List (Nat × Event) :=
  history.foldl record []

/-! ## The entry of an equation -/

section Entries

variable (most : Nat) (events : List Event)

@[simp] theorem isValid_dictated :
    (dictated most events).isValid = isEquation most (lastText events) := by
  rw [Entry.isValid, isEquation, dictated]
  cases Equation.parse (α := Float) most (lastText events) <;> rfl

theorem lastText_append_singleton (e : Event) :
    lastText (events ++ [e]) = e.text?.getD (lastText events) := by
  rw [lastText, List.filterMap_append]
  cases h : e.text? <;> simp [lastText, h]

theorem lastColor_append_singleton (e : Event) :
    lastColor (events ++ [e]) = e.color?.getD (lastColor events) := by
  rw [lastColor, List.filterMap_append]
  cases h : e.color? <;> simp [lastColor, h]

/-- A toggle counts by the text of its time, whatever happens later. -/
theorem toggleCount_append_singleton (e : Event) :
    toggleCount most (events ++ [e]) = toggleCount most events +
      if e = .toggled ∧ isEquation most (lastText events) = true then 1 else 0 := by
  have hbefore : ∀ i ∈ List.range events.length,
      ((events ++ [e])[i]? == some .toggled && isEquation most (lastText ((events ++ [e]).take i))) =
        (events[i]? == some .toggled && isEquation most (lastText (events.take i))) := by
    intro i hi
    have hlt := List.mem_range.1 hi
    rw [List.getElem?_append_left hlt, List.take_append_of_le_length hlt.le]
  rw [toggleCount, List.length_append, List.length_singleton, List.range_succ, List.countP_append,
    List.countP_congr fun i hi => by rw [hbefore i hi]]
  simp [toggleCount]

/-- The entry changes with each event of its equation. -/
theorem dictated_append_singleton (e : Event) :
    dictated most (events ++ [e]) = e.apply most (dictated most events) := by
  have htext := lastText_append_singleton events e
  have hcolor := lastColor_append_singleton events e
  have hcount := toggleCount_append_singleton most events e
  rw [dictated, htext, hcolor, hcount]
  cases e with
  | added text => rfl
  | edited text => rfl
  | removed => rfl
  | recolored color => rfl
  | toggled =>
    rw [Event.apply, isValid_dictated]
    cases isEquation most (lastText events) with
    | true =>
      have hparity : ((toggleCount most events + 1) % 2 == 0) =
          !(toggleCount most events % 2 == 0) := by
        rw [Bool.eq_iff_iff, beq_iff_eq, Bool.not_eq_true', beq_eq_false_iff_ne]
        omega
      simp only [and_self, if_true, hparity]
      rfl
    | false => rfl

end Entries

/-! ## The equations of a log -/

section Logs

variable (log : List (Nat × Event))

theorem nodup_present : (present log).Nodup :=
  List.nodup_range.filter _

theorem lt_of_mem_present {k : Nat} (h : k ∈ present log) : k < addedCount log :=
  List.mem_range.1 (List.mem_filter.1 h).1

theorem addedCount_append_singleton (k : Nat) (e : Event) :
    addedCount (log ++ [(k, e)]) = addedCount log + if e.isAdded then 1 else 0 := by
  simp [addedCount, List.countP_append, List.countP_singleton]

theorem eventsOf_append_singleton (k j : Nat) (e : Event) :
    eventsOf (log ++ [(k, e)]) j = if k = j then eventsOf log j ++ [e] else eventsOf log j := by
  rw [eventsOf, List.filter_append, List.map_append]
  split
  · next h => simp [eventsOf, h]
  · next h => simp [eventsOf, h]

/-- The events of a log are those of equations that were added. -/
def IsNumbered : Prop :=
  ∀ e ∈ log, e.1 < addedCount log

variable {log}

theorem eventsOf_addedCount (h : IsNumbered log) : eventsOf log (addedCount log) = [] := by
  rw [eventsOf, List.filter_eq_nil_iff.2, List.map_nil]
  intro e he
  simpa using (h e he).ne

/-- An added equation is present behind all others. -/
theorem present_append_added (h : IsNumbered log) (text : String) :
    present (log ++ [(addedCount log, .added text)]) = present log ++ [addedCount log] := by
  have hcount : addedCount (log ++ [(addedCount log, .added text)]) = addedCount log + 1 :=
    addedCount_append_singleton log _ _
  have hnew : (addedCount log, Event.removed) ∉ log := fun hmem => (h _ hmem).ne rfl
  rw [present, hcount, List.range_succ, List.filter_append]
  simp [present, hnew]

/-- Only additions and removals change which equations are present. -/
theorem present_append_of_ne {k : Nat} {e : Event} (hadded : e.isAdded = false)
    (hremoved : e ≠ .removed) : present (log ++ [(k, e)]) = present log := by
  have hcount := addedCount_append_singleton log k e
  rw [hadded, if_neg Bool.false_ne_true, Nat.add_zero] at hcount
  rw [present, hcount]
  exact List.filter_congr fun j _ => by simp [hremoved.symm]

theorem present_append_removed (k : Nat) :
    present (log ++ [(k, .removed)]) = (present log).erase k := by
  have hcount : addedCount (log ++ [(k, .removed)]) = addedCount log :=
    addedCount_append_singleton log _ _
  rw [present, hcount, (nodup_present log).erase_eq_filter, present, List.filter_filter]
  refine List.filter_congr fun j _ => ?_
  by_cases hj : j = k
  · simp [hj]
  · simp [hj]

/-- A change is addressed to a new equation, or to one that is present. -/
theorem addressee_eq_some {c : Change} {k : Nat} (h : addressee log c = some k) :
    (∃ text, c = .add text ∧ k = addedCount log) ∨ c.event.isAdded = false ∧ k ∈ present log := by
  rw [addressee] at h
  cases c with
  | add text => exact .inl ⟨text, rfl, (Option.some.inj h).symm⟩
  | _ => exact .inr ⟨rfl, List.mem_of_getElem? h⟩

theorem IsNumbered.record (h : IsNumbered log) (c : Change) : IsNumbered (record log c) := by
  rw [History.record]
  cases haddressee : addressee log c with
  | none => exact h
  | some k =>
    have hcount := addedCount_append_singleton log k c.event
    have hk : k < addedCount (log ++ [(k, c.event)]) := by
      rcases addressee_eq_some haddressee with ⟨text, rfl, rfl⟩ | ⟨-, hmem⟩
      · rw [hcount, Change.event, Event.isAdded, if_pos rfl]
        exact Nat.lt_succ_self _
      · exact hcount ▸ Nat.lt_add_right _ (lt_of_mem_present log hmem)
    intro e he
    rcases List.mem_append.1 he with he | he
    · exact hcount ▸ Nat.lt_add_right _ (h e he)
    · obtain rfl := List.mem_singleton.1 he
      exact hk

end Logs

/-! ## Sheets that follow a log -/

/-- Modifying the element at an index is modifying one of distinct keys. -/
theorem modify_map_of_nodup {α : Type} {keys : List Nat} (hnodup : keys.Nodup) {i k : Nat}
    (hk : keys[i]? = some k) (f : Nat → α) (g : α → α) :
    (keys.map f).modify i g = keys.map fun j => if k = j then g (f j) else f j := by
  ext1 j
  rw [List.getElem?_modify, List.getElem?_map, List.getElem?_map]
  cases hj : keys[j]? with
  | none => rfl
  | some l =>
    -- distinct keys are at distinct indices
    have hiff : i = j ↔ k = l := by
      constructor
      · rintro rfl
        exact Option.some.inj (hk.symm.trans hj)
      · rintro rfl
        have hi := (List.getElem?_eq_some_iff.1 hk).1
        exact (List.getElem?_inj hi hnodup).1 (hk.trans hj.symm)
    simp [hiff]

/-- The entries of a sheet are those that a log dictates. -/
structure Follows (most : Nat) (s : Sheet) (log : List (Nat × Event)) : Prop where
  entries : s.entries = (present log).map fun k => dictated most (eventsOf log k)
  isNumbered : IsNumbered log

variable {most : Nat} {s : Sheet} {log : List (Nat × Event)}

theorem Follows.size (h : Follows most s log) : s.size = (present log).length := by
  rw [Sheet.size, h.entries, List.length_map]

theorem dictated_eventsOf_append (k j : Nat) (e : Event) :
    dictated most (eventsOf (log ++ [(k, e)]) j) =
      if k = j then e.apply most (dictated most (eventsOf log j))
      else dictated most (eventsOf log j) := by
  rw [eventsOf_append_singleton]
  split
  · exact dictated_append_singleton _ _ e
  · rfl

theorem Follows.add (h : Follows most s log) (text : String) :
    (s.add most text).entries = (present (log ++ [(addedCount log, .added text)])).map fun k =>
      dictated most (eventsOf (log ++ [(addedCount log, .added text)]) k) := by
  have hold : ∀ k ∈ present log,
      dictated most (eventsOf (log ++ [(addedCount log, .added text)]) k) =
        dictated most (eventsOf log k) := by
    intro k hk
    rw [dictated_eventsOf_append, if_neg (lt_of_mem_present log hk).ne']
  have hnew : dictated most (eventsOf (log ++ [(addedCount log, .added text)]) (addedCount log)) =
      Entry.ofText most text := by
    rw [dictated_eventsOf_append, if_pos rfl, eventsOf_addedCount h.isNumbered]
    rfl
  rw [present_append_added h.isNumbered, List.map_append, List.map_congr_left hold,
    List.map_singleton, hnew, ← h.entries]
  rfl

theorem Follows.eraseIdx (h : Follows most s log) {i k : Nat} (hk : (present log)[i]? = some k) :
    s.entries.eraseIdx i = (present (log ++ [(k, .removed)])).map fun j =>
      dictated most (eventsOf (log ++ [(k, .removed)]) j) := by
  obtain ⟨hi, rfl⟩ := List.getElem?_eq_some_iff.1 hk
  have hold : ∀ j, dictated most (eventsOf (log ++ [((present log)[i], .removed)]) j) =
      dictated most (eventsOf log j) := by
    intro j
    rw [dictated_eventsOf_append]
    exact ite_id _
  rw [present_append_removed, (nodup_present log).erase_getElem i hi, h.entries, List.eraseIdx_map]
  exact List.map_congr_left fun j _ => (hold j).symm

theorem Follows.modify (h : Follows most s log) {i k : Nat} (hk : (present log)[i]? = some k)
    {e : Event}
    (hadded : e.isAdded = false) (hremoved : e ≠ .removed) :
    s.entries.modify i (e.apply most) = (present (log ++ [(k, e)])).map fun j =>
      dictated most (eventsOf (log ++ [(k, e)]) j) := by
  rw [present_append_of_ne hadded hremoved, h.entries, modify_map_of_nodup (nodup_present log) hk]
  exact List.map_congr_left fun j _ => (dictated_eventsOf_append k j e).symm

/-- **A sheet that follows a log goes on following it** when a change is made and recorded. -/
theorem Follows.change (h : Follows most s log) (c : Change) :
    Follows most (s.change most c) (record log c) := by
  refine ⟨?_, h.isNumbered.record c⟩
  cases hindex : c.index? with
  | none =>
    cases c with
    | add text => exact h.add text
    | _ => cases hindex
  | some i =>
    cases hk : (present log)[i]? with
    | none =>
      have hrecord : record log c = log := by
        simp [record, addressee, hindex, hk]
      have hle : s.size ≤ i := by
        rw [h.size]
        exact List.getElem?_eq_none_iff.1 hk
      rw [hrecord, Sheet.change_of_index_of_le hindex hle]
      exact h.entries
    | some k =>
      have hrecord : record log c = log ++ [(k, c.event)] := by
        simp [record, addressee, hindex, hk]
      have hlt : i < s.size := by
        rw [h.size]
        exact (List.getElem?_eq_some_iff.1 hk).1
      rw [hrecord, Sheet.change_of_index_of_lt hindex hlt]
      split
      · next hremoved =>
        rw [hremoved]
        exact h.eraseIdx hk
      · next hremoved =>
        refine h.modify hk ?_ hremoved
        cases c with
        | add text => cases hindex
        | _ => rfl

theorem log_append_singleton (history : List Change) (c : Change) :
    History.log (history ++ [c]) = record (History.log history) c := by
  rw [History.log, List.foldl_append]
  rfl

/-- What a sheet is after a history follows the log of the history. -/
theorem follows_after (most : Nat) (history : List Change) :
    Follows most (Sheet.after most history) (History.log history) := by
  induction history using List.reverseRecOn with
  | nil => exact ⟨rfl, fun e he => absurd he List.not_mem_nil⟩
  | append_singleton history c ih =>
    rw [log_append_singleton, Sheet.after_append_singleton]
    exact ih.change c

/-- The equations of a log are numbered by their additions. -/
theorem exists_added (history : List Change) {k : Nat}
    (hk : k < addedCount (History.log history)) :
    ∃ text, (k, Event.added text) ∈ History.log history := by
  induction history using List.reverseRecOn with
  | nil => exact absurd hk (Nat.not_lt_zero k)
  | append_singleton history c ih =>
    rw [log_append_singleton, record] at hk ⊢
    cases haddressee : addressee (History.log history) c with
    | none =>
      rw [haddressee] at hk
      exact ih hk
    | some l =>
      rw [haddressee] at hk
      dsimp only at hk ⊢
      rw [addedCount_append_singleton] at hk
      rcases addressee_eq_some haddressee with ⟨text, rfl, rfl⟩ | ⟨hevent, -⟩
      · rcases Nat.lt_succ_iff_lt_or_eq.1 hk with hk | rfl
        · obtain ⟨text, hmem⟩ := ih hk
          exact ⟨text, List.mem_append_left _ hmem⟩
        · exact ⟨text, List.mem_append_right _ (List.mem_singleton_self _)⟩
      · rw [hevent] at hk
        obtain ⟨text, hmem⟩ := ih hk
        exact ⟨text, List.mem_append_left _ hmem⟩

theorem status_dictated (most : Nat) (events : List Event) :
    (dictated most events).status =
      if isEquation most (lastText events) then
        if toggleCount most events % 2 = 0 then .graphed else .hidden
      else .invalid := by
  rw [Entry.status, isValid_dictated]
  cases isEquation most (lastText events) with
  | true =>
    by_cases hparity : toggleCount most events % 2 = 0
    · simp [dictated, hparity]
    · simp [dictated, hparity]
  | false => rfl

/-- **The sheet after a history is what the history dictates.** Its entries are the equations that
were added and not removed, in the order of their addition, each with the text, the color and the
visibility that its own events give it. A change with an index that no equation has is refused and
leaves the sheet as it is, and no change touches an entry that it is not addressed to, except that
a removal moves the entries behind it up. -/
theorem after_eq_dictated (most : Nat) (history : List Change) :
    (Sheet.after most history).entries =
        (present (History.log history)).map
          (fun k => dictated most (eventsOf (History.log history) k)) ∧
      (∀ k ∈ present (History.log history),
        (∃ text, (k, Event.added text) ∈ History.log history) ∧
        (dictated most (eventsOf (History.log history) k)).status =
          if isEquation most (lastText (eventsOf (History.log history) k)) then
            if toggleCount most (eventsOf (History.log history) k) % 2 = 0 then .graphed else .hidden
          else .invalid) ∧
      ∀ c : Change,
        ((Sheet.after most history).change? most c = none ↔
          ∃ i, c.index? = some i ∧ (Sheet.after most history).size ≤ i) ∧
        ((Sheet.after most history).change? most c = none →
          Sheet.after most (history ++ [c]) = Sheet.after most history) ∧
        ∀ j e, (Sheet.after most history).entries[j]? = some e → c.index? ≠ some j →
          (Sheet.after most (history ++ [c])).entries[c.shift j]? = some e := by
  refine ⟨(follows_after most history).entries, fun k hk => ⟨?_, status_dictated _ _⟩, fun c => ?_⟩
  · exact exists_added history (lt_of_mem_present _ hk)
  · rw [Sheet.after_append_singleton]
    refine ⟨Sheet.change?_eq_none_iff _ _, fun hnone => ?_, fun j e he hc => ?_⟩
    · rw [Sheet.change, hnone, Option.getD_none]
    · exact Sheet.getElem?_entries_change he hc

/-- Toggles of an equation before, within and after a stretch with an invalid text, a removal ahead
of it, and changes past the end. -/
theorem after_toggles_across_edits :
    ((Sheet.after 1000 [.add "y=1", .add "y=x", .toggle 1, .edit 1 "y=x^", .toggle 1, .remove 0,
          .edit 0 "y=2x", .recolor 0 ⟨1, 2, 3⟩, .toggle 1, .add "y="]).entries.map
        fun e => (e.text, e.status, e.color)) =
      [("y=2x", .hidden, ⟨1, 2, 3⟩), ("y=", .invalid, .black)] ∧
    (Sheet.after 1000 [.add "y=1", .add "y=x", .remove 0]).change? 1000 (.toggle 1) = none := by
  constructor
  · rw [(after_eq_dictated _ _).1]
    decide +kernel
  · exact ((after_eq_dictated _ _).2.2 _).1.2 ⟨1, rfl, by decide +kernel⟩

end History

end PlotSheet
