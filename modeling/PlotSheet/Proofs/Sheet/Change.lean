import Mathlib.Data.List.Basic
import PlotSheet.Sheet.Basic

/-!
# Changes of a sheet

A sheet is changed by adding equations at its end, and by editing, removing, toggling and recoloring
the equation at an index. A change either finds no equation with its index, and there is no next
sheet, or it makes something happen to that equation alone; a removal moves those behind it up.

## Main definitions

* `Change`, `Sheet.change?`: changes of a sheet
* `Event`, `Event.apply`: what happens to a single equation
* `Sheet.change`, `Sheet.after`: the sheet after a change, and after a history of changes

## Main results

* `Sheet.change?_of_index`: a change that is addressed to an index
* `Sheet.change?_eq_none_iff`: the changes that find no equation
* `Sheet.getElem?_entries_change`: a change leaves all other entries alone
-/

namespace PlotSheet

/-! ## Changes -/

/-- A change of a sheet. -/
inductive Change where
  | add (text : String)
  | edit (i : Nat) (text : String)
  | remove (i : Nat)
  | toggle (i : Nat)
  | recolor (i : Nat) (color : Rgb)
  deriving DecidableEq, Repr

namespace Change

/-- The index that a change is addressed to. Additions are addressed to no entry. -/
def index? : Change → Option Nat
  | add _ => none
  | edit i _ | remove i | toggle i | recolor i _ => some i

/-- The index of another entry after the change: entries behind a removed one move up. -/
def shift : Change → Nat → Nat
  | remove i, j => if i < j then j - 1 else j
  | _, j => j

end Change

namespace Sheet

/-- The sheet after a change, if there is an equation with its index. -/
def change? (most : Nat) (s : Sheet) : Change → Option Sheet
  | .add text => some (s.add most text)
  | .edit i text => s.edit most i text
  | .remove i => (s.remove i).map Prod.snd
  | .toggle i => (s.toggle i).map Prod.snd
  | .recolor i color => s.setColor i color

/-- The sheet after a change, which is the same sheet if there is no equation with its index. -/
def change (most : Nat) (s : Sheet) (c : Change) : Sheet :=
  (s.change? most c).getD s

/-- The sheet after a history, from the empty one. -/
def after (most : Nat) (history : List Change) : Sheet :=
  history.foldl (change most) empty

end Sheet

/-! ## Events -/

/-- What happens to one equation. -/
inductive Event where
  | added (text : String)
  | edited (text : String)
  | removed
  | toggled
  | recolored (color : Rgb)
  deriving DecidableEq, Repr

namespace Event

/-- The text that the equation gets. -/
def text? : Event → Option String
  | added text | edited text => some text
  | removed | toggled | recolored _ => none

/-- The color that the equation gets. -/
def color? : Event → Option Rgb
  | recolored color => some color
  | added _ | edited _ | removed | toggled => none

/-- Whether the event is an addition. -/
def isAdded : Event → Bool
  | added _ => true
  | edited _ | removed | toggled | recolored _ => false

/-- What the event makes of the entry of the equation. -/
def apply (most : Nat) : Event → Entry → Entry
  | added text, e | edited text, e => e.setText most text
  | removed, e => e
  | toggled, e => if e.isValid then e.flip else e
  | recolored color, e => { e with color }

end Event

/-- What a change makes happen to the equation that it is addressed to. -/
def Change.event : Change → Event
  | add text => .added text
  | edit _ text => .edited text
  | remove _ => .removed
  | toggle _ => .toggled
  | recolor _ color => .recolored color

namespace Change

theorem shift_of_removed {c : Change} {i : Nat} (h : c.index? = some i)
    (hremoved : c.event = .removed) (j : Nat) : c.shift j = if i < j then j - 1 else j := by
  cases c with
  | remove k => cases h; rfl
  | _ => cases hremoved

theorem shift_of_not_removed {c : Change} (h : c.event ≠ .removed) (j : Nat) : c.shift j = j := by
  cases c with
  | remove k => exact absurd rfl h
  | _ => rfl

end Change

/-- Functions that agree on the element at an index modify it alike. -/
theorem modify_congr {α : Type} {l : List α} {i : Nat} {a : α} (h : l[i]? = some a) {f g : α → α}
    (hfg : f a = g a) : l.modify i f = l.modify i g := by
  ext1 j
  rw [List.getElem?_modify, List.getElem?_modify]
  by_cases hij : i = j
  · subst hij
    simp [h, hfg]
  · simp [hij]

namespace Sheet

variable (most : Nat) (s : Sheet) {c : Change} {i : Nat}

/-- A toggle flips a valid entry, and leaves any other one as it is. -/
theorem toggle_eq (i : Nat) :
    (s.toggle i).map Prod.snd =
      if i < s.size then some ⟨s.entries.modify i (Event.toggled.apply most)⟩ else none := by
  rw [toggle, get?]
  cases h : s.entries[i]? with
  | none =>
    have hle : s.size ≤ i := List.getElem?_eq_none_iff.1 h
    rw [if_neg (Nat.not_lt.2 hle)]
    rfl
  | some e =>
    have hlt : i < s.size := (List.getElem?_eq_some_iff.1 h).1
    rw [if_pos hlt]
    dsimp only
    split
    · next hvalid =>
      have hflip : e.flip = Event.toggled.apply most e := (if_pos hvalid).symm
      rw [replace?, if_pos hlt, modify_congr h hflip]
      rfl
    · next hvalid =>
      have hself : Event.toggled.apply most e = id e := if_neg hvalid
      rw [modify_congr h hself, List.modify_id]
      rfl

theorem remove_eq (i : Nat) :
    (s.remove i).map Prod.snd = if i < s.size then some ⟨s.entries.eraseIdx i⟩ else none := by
  rw [remove, get?]
  split
  · next hlt =>
    have hget : s.entries[i]? = some s.entries[i] := List.getElem?_eq_getElem hlt
    rw [hget]
    rfl
  · next hlt =>
    have hget : s.entries[i]? = none := List.getElem?_eq_none (Nat.le_of_not_lt hlt)
    rw [hget]
    rfl

/-- A change that is addressed to an index changes the entry there, or removes it. -/
theorem change?_of_index (h : c.index? = some i) :
    s.change? most c =
      if i < s.size then
        some ⟨if c.event = .removed then s.entries.eraseIdx i
          else s.entries.modify i (c.event.apply most)⟩
      else none := by
  cases c with
  | add text => cases h
  | edit j text => cases h; rfl
  | remove j => cases h; exact s.remove_eq i
  | toggle j => cases h; exact s.toggle_eq most i
  | recolor j color => cases h; rfl

theorem change?_eq_none_iff : s.change? most c = none ↔ ∃ i, c.index? = some i ∧ s.size ≤ i := by
  cases h : c.index? with
  | none =>
    obtain ⟨text, rfl⟩ : ∃ text, c = .add text := by
      cases c with
      | add text => exact ⟨text, rfl⟩
      | _ => cases h
    simp [change?]
  | some i => simp [s.change?_of_index most h]

theorem after_append_singleton (history : List Change) (c : Change) :
    after most (history ++ [c]) = (after most history).change most c := by
  rw [after, List.foldl_append]
  rfl

variable {most : Nat} {s}

theorem change_of_index_of_lt (h : c.index? = some i) (hlt : i < s.size) :
    (s.change most c).entries = if c.event = .removed then s.entries.eraseIdx i
      else s.entries.modify i (c.event.apply most) := by
  rw [change, s.change?_of_index most h, if_pos hlt]
  rfl

theorem change_of_index_of_le (h : c.index? = some i) (hle : s.size ≤ i) : s.change most c = s := by
  rw [change, s.change?_of_index most h, if_neg (Nat.not_lt.2 hle)]
  rfl

/-- An entry that a change is not addressed to stays as it is, at its shifted index. -/
theorem getElem?_entries_change {j : Nat} {e : Entry} (he : s.entries[j]? = some e)
    (hc : c.index? ≠ some j) : (s.change most c).entries[c.shift j]? = some e := by
  have hj : j < s.size := (List.getElem?_eq_some_iff.1 he).1
  cases h : c.index? with
  | none =>
    cases c with
    | add text => exact (List.getElem?_append_left hj).trans he
    | _ => cases h
  | some i =>
    have hij : i ≠ j := by simpa [h] using hc
    rcases Nat.lt_or_ge i s.size with hlt | hle
    · rw [change_of_index_of_lt h hlt]
      by_cases hremoved : c.event = .removed
      · rw [if_pos hremoved, Change.shift_of_removed h hremoved, List.getElem?_eraseIdx]
        rcases Nat.lt_or_gt_of_ne hij with hbehind | hbefore
        · rw [if_pos hbehind, if_neg (by omega), Nat.sub_add_cancel (Nat.one_le_of_lt hbehind), he]
        · rw [if_neg (Nat.lt_asymm hbefore), if_pos hbefore, he]
      · rw [if_neg hremoved, Change.shift_of_not_removed hremoved, List.getElem?_modify, he]
        simp [hij]
    · have hshift : c.shift j = j := by
        by_cases hremoved : c.event = .removed
        · rw [Change.shift_of_removed h hremoved, if_neg (by omega)]
        · exact Change.shift_of_not_removed hremoved j
      rw [change_of_index_of_le h hle, hshift, he]

end Sheet

end PlotSheet
