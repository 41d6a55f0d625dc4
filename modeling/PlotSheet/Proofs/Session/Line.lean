import Mathlib.Data.List.Basic
import PlotSheet.Session.Line

/-!
# Complete lines of input

An input that ends its last line can be read line by line as if nothing followed it.

## Main definitions

* `EndsLine`: an input that is empty or ends with a newline

## Main results

* `readLine_append`: the next line of a complete input does not depend on what follows
* `readLine_eq_endOfInput_iff`: only an empty input has no next line
-/

namespace PlotSheet

/-- The input is empty or ends with a newline. -/
def EndsLine (input : List UInt8) : Prop :=
  input = [] ∨ input.getLast? = some newline

instance (input : List UInt8) : Decidable (EndsLine input) :=
  inferInstanceAs (Decidable (_ ∨ _))

theorem EndsLine.tail {b : UInt8} {rest : List UInt8} (h : EndsLine (b :: rest)) :
    EndsLine rest := by
  rcases rest with - | ⟨c, rest⟩
  · exact .inl rfl
  · rcases h with h | h
    · cases h
    · exact .inr (by rwa [List.getLast?_cons_cons] at h)

/-- The first line of a complete input is not changed by what follows the input. -/
theorem splitLine_append_of_endsLine {input : List UInt8} (h : EndsLine input)
    (hne : input ≠ []) (more : List UInt8) :
    splitLine (input ++ more) = ((splitLine input).1, (splitLine input).2 ++ more) := by
  induction input with
  | nil => exact absurd rfl hne
  | cons b rest ih =>
    rw [List.cons_append, splitLine, splitLine]
    split
    · rfl
    · next hb =>
      have hrest : rest ≠ [] := by
        rintro rfl
        rcases h with h | h
        · cases h
        · exact hb (Option.some.inj h)
      rw [ih h.tail hrest]

theorem EndsLine.splitLine_snd {input : List UInt8} (h : EndsLine input) :
    EndsLine (splitLine input).2 := by
  induction input with
  | nil => exact h
  | cons b rest ih =>
    rw [splitLine]
    split
    · exact h.tail
    · exact ih h.tail

theorem splitLine_snd_length_lt {input : List UInt8} (hne : input ≠ []) :
    (splitLine input).2.length < input.length := by
  induction input with
  | nil => exact absurd rfl hne
  | cons b rest ih =>
    rw [splitLine]
    split
    · exact Nat.lt_succ_self _
    · rcases rest with - | ⟨c, rest⟩
      · exact Nat.zero_lt_one
      · exact Nat.lt_succ_of_lt (ih (List.cons_ne_nil c rest))

section ReadLine

variable {input : List UInt8}

theorem readLine_of_ne_nil (hne : input ≠ []) :
    readLine input = (lineText (splitLine input).1, (splitLine input).2) := by
  rw [readLine, if_neg (by simpa using hne)]

/-- Only an empty input has no next line. -/
theorem readLine_eq_endOfInput_iff : (readLine input).1 = .error .endOfInput ↔ input = [] := by
  constructor
  · intro h
    by_contra hne
    rw [readLine_of_ne_nil hne, lineText] at h
    split at h
    · cases h
    · cases h
  · rintro rfl
    rfl

/-- The next line of a complete input is not changed by what follows the input. -/
theorem readLine_append (h : EndsLine input) (hne : input ≠ []) (more : List UInt8) :
    readLine (input ++ more) = ((readLine input).1, (readLine input).2 ++ more) := by
  rw [readLine_of_ne_nil hne, readLine_of_ne_nil (List.append_ne_nil_of_left_ne_nil hne more),
    splitLine_append_of_endsLine h hne]

theorem EndsLine.readLine_snd (h : EndsLine input) : EndsLine (readLine input).2 := by
  by_cases hne : input = []
  · subst hne
    exact h
  · rw [readLine_of_ne_nil hne]
    exact h.splitLine_snd

/-- Nothing is left of an input that has no next line, and less of one that has. -/
theorem readLine_snd_length_lt (hne : input ≠ []) : (readLine input).2.length < input.length := by
  rw [readLine_of_ne_nil hne]
  exact splitLine_snd_length_lt hne

theorem readLine_snd_length_le (input : List UInt8) :
    (readLine input).2.length ≤ input.length := by
  by_cases hne : input = []
  · subst hne
    exact Nat.le_refl _
  · exact Nat.le_of_lt (readLine_snd_length_lt hne)

end ReadLine

end PlotSheet
