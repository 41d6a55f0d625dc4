import PlotSheet.Fault

/-!
# Results

The equations of computations that may fail, for rewriting a `do` block along its steps.

## Main results

* `ok_bind`, `error_bind`: a step that gives a value, and one that fails
* `map_eq_ok_iff`: the values of a mapped computation
-/

namespace PlotSheet

variable {ε α β : Type}

@[simp] theorem ok_bind (a : α) (f : α → Except ε β) : (Except.ok a >>= f) = f a := rfl

@[simp] theorem error_bind (e : ε) (f : α → Except ε β) :
    ((Except.error e : Except ε α) >>= f) = .error e := rfl

@[simp] theorem pure_eq_ok (a : α) : (pure a : Except ε α) = .ok a := rfl

theorem map_eq_ok_iff {x : Except ε α} {f : α → β} {b : β} :
    x.map f = .ok b ↔ ∃ a, x = .ok a ∧ b = f a := by
  cases x with
  | ok a => simp [Except.map, eq_comm]
  | error e => simp [Except.map]

end PlotSheet
