/-!
# Bounded natural numbers

Numerals of a number below a limit, in a base up to 36: an optional plus sign and at least one
digit. The first character that is no digit, or the first digit that takes the value past the
limit, decides the error, whichever comes first.

## Main definitions

* `Natural.read`: the number that a whole text spells
* `NaturalError`: why a text spells none
-/

namespace PlotSheet

/-- Why a text is no numeral of a number below the limit. -/
inductive NaturalError where
  | empty
  | invalidDigit
  | tooLarge
  deriving DecidableEq, Repr

/-- The wording of a numeral error. -/
def NaturalError.message : NaturalError → String
  | empty => "cannot parse integer from empty string"
  | invalidDigit => "invalid digit found in string"
  | tooLarge => "number too large to fit in target type"

namespace Natural

/-- The value of a digit in a base up to 36. -/
def digit? (base : Nat) (c : Char) : Option Nat :=
  let value :=
    if '0' ≤ c ∧ c ≤ '9' then some (c.toNat - '0'.toNat)
    else if 'a' ≤ c ∧ c ≤ 'z' then some (c.toNat - 'a'.toNat + 10)
    else if 'A' ≤ c ∧ c ≤ 'Z' then some (c.toNat - 'A'.toNat + 10)
    else none
  value.filter (· < base)

/-- Appends the digits to a value below the limit. -/
def readDigits (base limit : Nat) : Nat → List Char → Except NaturalError Nat
  | value, [] => .ok value
  | value, c :: rest =>
    match digit? base c with
    | none => .error .invalidDigit
    | some d =>
      if base * value + d < limit then readDigits base limit (base * value + d) rest
      else .error .tooLarge

/-- The number below the limit that a whole text spells. -/
def read (base limit : Nat) : List Char → Except NaturalError Nat
  | [] => .error .empty
  | ['+'] => .error .invalidDigit
  | '+' :: digits => readDigits base limit 0 digits
  | digits => readDigits base limit 0 digits

/-- What is read is below the limit. -/
theorem readDigits_lt {base limit value n : Nat} {text : List Char} (hvalue : value < limit)
    (h : readDigits base limit value text = .ok n) : n < limit := by
  fun_induction readDigits base limit value text with
  | case1 => simp_all
  | case2 => simp at h
  | case3 value c rest d hd hlt ih => exact ih hlt h
  | case4 => simp at h

theorem read_lt {base limit n : Nat} {text : List Char} (hlimit : 0 < limit)
    (h : read base limit text = .ok n) : n < limit := by
  unfold read at h
  split at h <;> first | exact readDigits_lt hlimit h | simp at h

end Natural

end PlotSheet
