import PlotSheet.Number.Natural

/-!
# The characters of numerals

A numeral is an optional plus sign and digits of its base. Digits are ASCII characters, so that
what holds of every digit is settled by a look at each character of ASCII.

## Main results

* `Natural.forall_digit`: a property of the digits of a base
* `Natural.digits_of_read`: a numeral is an optional plus sign and digits
* `Natural.read_pair_eq_ok_iff`: the numerals of two characters
-/

namespace PlotSheet.Natural

variable {base limit n : Nat}

/-! ## Digits -/

theorem toNat_lt_of_digit? {c : Char} {d : Nat} (h : digit? base c = some d) : c.toNat < 128 := by
  obtain ⟨hvalue, -⟩ := Option.filter_eq_some_iff.1 h
  have hbound {last : Char} (hlast : last.toNat < 128) (hc : c ≤ last) : c.toNat < 128 :=
    Nat.lt_of_le_of_lt (show c.toNat ≤ last.toNat from hc) hlast
  split at hvalue
  · next hc => exact hbound (by decide) hc.2
  · split at hvalue
    · next hc => exact hbound (by decide) hc.2
    · split at hvalue
      · next hc => exact hbound (by decide) hc.2
      · cases hvalue

theorem digit?_lt {c : Char} {d : Nat} (h : digit? base c = some d) : d < base :=
  of_decide_eq_true (Option.filter_eq_some_iff.1 h).2

/-- A property of the digits of a base holds if it holds of those among the characters of ASCII. -/
theorem forall_digit {p : Char → Nat → Prop}
    (h : ∀ i : Fin 128, ∀ d ∈ digit? base (Char.ofNat i.val), p (Char.ofNat i.val) d) {c : Char}
    {d : Nat} (hd : digit? base c = some d) : p c d := by
  have hc := h ⟨c.toNat, toNat_lt_of_digit? hd⟩ d
  dsimp only at hc
  rw [Char.ofNat_toNat] at hc
  exact hc hd

theorem isDigit_of_digit? {c : Char} {d : Nat} (h : digit? 10 c = some d) : c.isDigit = true := by
  revert h
  apply forall_digit (p := fun c _ => c.isDigit = true)
  decide

theorem digit?_plus (base : Nat) : digit? base '+' = none := by
  simp [digit?]

/-! ## Numerals -/

theorem readDigits_cons_eq_ok_iff {value : Nat} {c : Char} {rest : List Char} :
    readDigits base limit value (c :: rest) = .ok n ↔
      ∃ d, digit? base c = some d ∧ base * value + d < limit ∧
        readDigits base limit (base * value + d) rest = .ok n := by
  rw [readDigits]
  cases digit? base c with
  | none => simp
  | some d => by_cases hlt : base * value + d < limit <;> simp [hlt]

theorem isSome_of_readDigits {value : Nat} {text : List Char}
    (h : readDigits base limit value text = .ok n) : ∀ c ∈ text, (digit? base c).isSome = true := by
  fun_induction readDigits base limit value text with
  | case1 => simp
  | case2 => cases h
  | case3 value c rest d hd hlt ih =>
    rw [List.forall_mem_cons]
    exact ⟨by rw [hd, Option.isSome_some], ih h⟩
  | case4 => cases h

/-- A numeral is an optional plus sign and digits. -/
theorem digits_of_read {text : List Char} (h : read base limit text = .ok n) :
    ∃ digits, (text = digits ∨ text = '+' :: digits) ∧
      ∀ c ∈ digits, (digit? base c).isSome = true := by
  unfold read at h
  split at h
  · cases h
  · cases h
  · next digits _ => exact ⟨digits, .inr rfl, isSome_of_readDigits h⟩
  · exact ⟨_, .inl rfl, isSome_of_readDigits h⟩

/-- The numerals of two characters below the square of the base: two digits, or a plus sign and a
digit. -/
theorem read_pair_eq_ok_iff {a b : Char} :
    read base (base * base) [a, b] = .ok n ↔
      (∃ high low, digit? base a = some high ∧ digit? base b = some low ∧
        n = base * high + low) ∨
      (a = '+' ∧ digit? base b = some n) := by
  have hlt {high low : Nat} (hhigh : high < base) (hlow : low < base) :
      base * high + low < base * base := by
    have : base * (high + 1) ≤ base * base := Nat.mul_le_mul_left base hhigh
    rw [Nat.mul_succ] at this
    omega
  have hlast {high : Nat} (hhigh : high < base) :
      readDigits base (base * base) high [b] = .ok n ↔
        ∃ low, digit? base b = some low ∧ n = base * high + low := by
    rw [readDigits_cons_eq_ok_iff]
    constructor
    · rintro ⟨low, hlow, -, h⟩
      exact ⟨low, hlow, (Except.ok.inj h).symm⟩
    · rintro ⟨low, hlow, rfl⟩
      exact ⟨low, hlow, hlt hhigh (digit?_lt hlow), rfl⟩
  by_cases ha : a = '+'
  · subst ha
    have hread : read base (base * base) ['+', b] = readDigits base (base * base) 0 [b] := rfl
    rw [hread, digit?_plus]
    constructor
    · intro h
      obtain ⟨low, hlow, -, hn⟩ := readDigits_cons_eq_ok_iff.1 h
      rw [Nat.mul_zero, Nat.zero_add] at hn
      exact .inr ⟨rfl, hlow.trans (congrArg some (Except.ok.inj hn))⟩
    · rintro (⟨high, low, hhigh, -⟩ | ⟨-, hlow⟩)
      · cases hhigh
      · have hbase : 0 < base := Nat.zero_lt_of_lt (digit?_lt hlow)
        exact (hlast hbase).2 ⟨n, hlow, by rw [Nat.mul_zero, Nat.zero_add]⟩
  · have hread : read base (base * base) [a, b] = readDigits base (base * base) 0 [a, b] := by
      rw [read] <;> simp [ha]
    rw [hread, readDigits_cons_eq_ok_iff, Nat.mul_zero]
    simp only [Nat.zero_add]
    constructor
    · rintro ⟨high, hhigh, -, h⟩
      obtain ⟨low, hlow, hn⟩ := (hlast (digit?_lt hhigh)).1 h
      exact .inl ⟨high, low, hhigh, hlow, hn⟩
    · rintro (⟨high, low, hhigh, hlow, hn⟩ | ⟨hplus, -⟩)
      · have hfirst := Nat.lt_of_lt_of_le (digit?_lt hhigh) (Nat.le_mul_self base)
        exact ⟨high, hhigh, hfirst, (hlast (digit?_lt hhigh)).2 ⟨low, hlow, hn⟩⟩
      · exact absurd hplus ha

end PlotSheet.Natural
