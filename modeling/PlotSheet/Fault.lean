/-!
# Faults

A fault is a broken promise of the library itself: a slice that leaves its text or cuts a
character in two, a length that would go below zero, a count past the machine word, an index
outside its list. Operations that rest on such a promise check it and return the fault, so that
keeping the promise is a statement about them and not a convention.

## Main definitions

* `Fault`: the promises that can be broken
* `difference`, `wordSum`: checked arithmetic on lengths and counts
* `store`: checked replacement of a list entry
-/

namespace PlotSheet

/-- The promises that can be broken. -/
inductive Fault where
  /-- A slice outside its text, or off a character boundary. -/
  | slice
  /-- A length below zero. -/
  | underflow
  /-- A count past the machine word. -/
  | overflow
  /-- An index outside its list. -/
  | index
  deriving DecidableEq, Repr

/-- The number of values of a machine word. -/
def wordSize : Nat := UInt64.size

/-- The difference of two lengths, which must not be negative. -/
def difference (a b : Nat) : Except Fault Nat :=
  if b ≤ a then .ok (a - b) else .error .underflow

/-- The sum of two counts, which must fit a machine word. -/
def wordSum (a b : Nat) : Except Fault Nat :=
  if a + b < wordSize then .ok (a + b) else .error .overflow

variable {α : Type}

/-- The list with its entry `i`, which must exist, replaced by `a`. -/
def store (l : List α) (i : Nat) (a : α) : Except Fault (List α) :=
  if i < l.length then .ok (l.set i a) else .error .index

/-- The entry `i` of the list, which must exist. -/
def fetch (l : List α) (i : Nat) : Except Fault α :=
  match l[i]? with
  | some a => .ok a
  | none => .error .index

theorem difference_eq_ok {a b : Nat} (h : b ≤ a) : difference a b = .ok (a - b) := if_pos h

theorem wordSum_eq_ok {a b : Nat} (h : a + b < wordSize) : wordSum a b = .ok (a + b) := if_pos h

theorem store_eq_ok {l : List α} {i : Nat} (h : i < l.length) (a : α) :
    store l i a = .ok (l.set i a) := if_pos h

theorem fetch_eq_ok {l : List α} {i : Nat} (h : i < l.length) : fetch l i = .ok l[i] := by
  simp [fetch, h]

end PlotSheet
