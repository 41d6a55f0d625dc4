import Mathlib.Data.Bool.AllAny
import Mathlib.Tactic.IntervalCases
import PlotSheet.Number.Layout
import PlotSheet.Number.Literal
import PlotSheet.Number.Natural

/-!
# Numerals

The digits of a natural number are read back to it, by the reader of literals and by that of
bounded numbers. Zeros behind the digits multiply the number by powers of ten; zeros ahead of them
change nothing.

## Main results

* `Literal.digitsValue_digits`, `Natural.read_digits`: the digits of a number spell it
* `Literal.readMagnitude_positional`: the positional text of a number spells it
-/

namespace PlotSheet

namespace Literal

/-- The digits of a number spell it. -/
@[simp] theorem digitsValue_digits (n : Nat) : digitsValue (Layout.digits n) = n :=
  Nat.ofDigitChars_ten_toDigits

theorem digitsValue_append (a b : List Char) :
    digitsValue (a ++ b) = Nat.ofDigitChars 10 b (digitsValue a) := by
  rw [digitsValue, List.foldl_append]
  rfl

theorem ofDigitChars_replicate_zero (k n : Nat) :
    Nat.ofDigitChars 10 (List.replicate k '0') n = n * 10 ^ k := by
  induction k generalizing n with
  | zero => simp
  | succ k ih =>
    have hzero : 10 * n + ('0'.toNat - '0'.toNat) = n * 10 := by omega
    rw [List.replicate_succ, Nat.ofDigitChars_cons, ih, hzero, Nat.mul_assoc, ← Nat.pow_succ']

/-- Zeros behind the digits multiply a number by powers of ten. -/
theorem digitsValue_append_zeros (text : List Char) (k : Nat) :
    digitsValue (text ++ List.replicate k '0') = digitsValue text * 10 ^ k := by
  rw [digitsValue_append, ofDigitChars_replicate_zero]

/-- Zeros ahead of the digits do not change a number. -/
theorem digitsValue_zeros_append (k : Nat) (text : List Char) :
    digitsValue (List.replicate k '0' ++ text) = digitsValue text := by
  have hzeros := digitsValue_append_zeros [] k
  rw [List.nil_append] at hzeros
  rw [digitsValue_append, hzeros, digitsValue, List.foldl_nil, Nat.zero_mul]
  rfl

theorem isDigit_of_mem_digits {n : Nat} {c : Char} (h : c ∈ Layout.digits n) :
    c.isDigit = true :=
  Nat.isDigit_of_mem_toDigits (by decide) (by decide) h

theorem digits_ne_nil (n : Nat) : Layout.digits n ≠ [] :=
  Nat.toDigits_ne_nil

/-! ## Unsigned decimals -/

theorem takeWhile_isDigit {text : List Char} (h : ∀ c ∈ text, c.isDigit = true)
    (rest : List Char) (hrest : ∀ c ∈ rest.head?, c.isDigit = false) :
    (text ++ rest).takeWhile Char.isDigit = text ∧
      (text ++ rest).dropWhile Char.isDigit = rest := by
  rw [List.takeWhile_append_of_pos h, List.dropWhile_append_of_pos h]
  cases rest with
  | nil => simp
  | cons c rest =>
    have hc : c.isDigit = false := hrest c rfl
    simp [hc]

theorem readDecimal_of_digits {text : List Char} (h : ∀ c ∈ text, c.isDigit = true)
    (hne : text ≠ []) : readDecimal text = some (.decimal (digitsValue text) 0) := by
  obtain ⟨htake, hdrop⟩ := takeWhile_isDigit h [] (by simp)
  rw [List.append_nil] at htake hdrop
  simp [readDecimal, htake, hdrop, splitFraction, readExponent, hne]

theorem readDecimal_of_point {whole fraction : List Char} (hwhole : ∀ c ∈ whole, c.isDigit = true)
    (hfraction : ∀ c ∈ fraction, c.isDigit = true) (hne : whole ≠ []) :
    readDecimal (whole ++ '.' :: fraction) =
      some (.decimal (digitsValue (whole ++ fraction)) (-fraction.length)) := by
  obtain ⟨htake, hdrop⟩ := takeWhile_isDigit hwhole ('.' :: fraction) (by simp)
  obtain ⟨htake', hdrop'⟩ := takeWhile_isDigit hfraction [] (by simp)
  rw [List.append_nil] at htake' hdrop'
  simp [readDecimal, htake, hdrop, splitFraction, htake', hdrop', readExponent, hne]

theorem mem_of_isDigit {c : Char} (h : c.isDigit = true) : c ∈ "0123456789".toList := by
  rw [Char.isDigit, Bool.and_eq_true, decide_eq_true_eq, decide_eq_true_eq] at h
  have hle : 48 ≤ c.toNat ∧ c.toNat ≤ 57 := h
  have hc : c = Char.ofNat c.toNat := (Char.ofNat_toNat c).symm
  rw [hc]
  generalize c.toNat = n at hle
  obtain ⟨hlo, hhi⟩ := hle
  interval_cases n <;> decide

/-- A text that starts with a digit is none of the words. -/
theorem readMagnitude_of_isDigit {c : Char} (h : c.isDigit = true) (rest : List Char) :
    readMagnitude (c :: rest) = readDecimal (c :: rest) := by
  have hletter : c.toLower ≠ 'i' ∧ c.toLower ≠ 'n' := by
    have hall : ∀ d ∈ "0123456789".toList, d.toLower ≠ 'i' ∧ d.toLower ≠ 'n' :=
      List.all_iff_forall_prop.1 (by decide)
    exact hall c (mem_of_isDigit h)
  rw [readMagnitude]
  simp [hletter.1, hletter.2]

/-- Digits spell their number. -/
theorem readMagnitude_of_digits {text : List Char} (h : ∀ c ∈ text, c.isDigit = true)
    (hne : text ≠ []) : readMagnitude text = some (.decimal (digitsValue text) 0) := by
  obtain ⟨c, rest, rfl⟩ := List.exists_cons_of_ne_nil hne
  rw [readMagnitude_of_isDigit (h c List.mem_cons_self), readDecimal_of_digits h hne]

/-- Digits around a point spell their number, scaled down by the digits behind the point. -/
theorem readMagnitude_of_point {whole fraction : List Char}
    (hwhole : ∀ c ∈ whole, c.isDigit = true) (hfraction : ∀ c ∈ fraction, c.isDigit = true)
    (hne : whole ≠ []) :
    readMagnitude (whole ++ '.' :: fraction) =
      some (.decimal (digitsValue (whole ++ fraction)) (-fraction.length)) := by
  have hread := readDecimal_of_point hwhole hfraction hne
  obtain ⟨c, rest, rfl⟩ := List.exists_cons_of_ne_nil hne
  rw [List.cons_append] at hread ⊢
  rw [readMagnitude_of_isDigit (hwhole c List.mem_cons_self), hread]

theorem isDigit_of_mem_replicate {k : Nat} {c : Char} (h : c ∈ List.replicate k '0') :
    c.isDigit = true := by
  rw [List.eq_of_mem_replicate h]
  decide

/-- The positional text of a number spells it, with a scale of zero or below. -/
theorem readMagnitude_positional (number : Nat) (scale : Int) :
    readMagnitude (Layout.plain.positional number scale) =
      some (.decimal (number * 10 ^ scale.toNat) (-((-scale).toNat : Int))) := by
  have hdigits : ∀ c ∈ Layout.digits number, c.isDigit = true := fun c => isDigit_of_mem_digits
  rw [Layout.positional]
  split
  · next hscale =>
    have hplaces : (-scale).toNat = 0 := by omega
    have hall : ∀ c ∈ Layout.digits number ++ List.replicate scale.toNat '0',
        c.isDigit = true := by
      intro c hc
      exact (List.mem_append.1 hc).elim (hdigits c) isDigit_of_mem_replicate
    have hread := readMagnitude_of_digits hall (by simp [digits_ne_nil])
    rw [digitsValue_append_zeros, digitsValue_digits] at hread
    rw [hplaces, Layout.plain, if_neg Bool.false_ne_true, List.append_nil]
    exact hread
  · next hscale =>
    have hplaces : scale.toNat = 0 := by omega
    rw [hplaces, Nat.pow_zero, Nat.mul_one]
    generalize (-scale).toNat = places
    dsimp only
    generalize hlength : (Layout.digits number).length = length
    split
    · next hlt =>
      have hne : (Layout.digits number).take (length - places) ≠ [] := by
        rw [← List.length_pos_iff, List.length_take, hlength]
        omega
      have hbehind : ∀ c ∈ (Layout.digits number).drop (length - places), c.isDigit = true :=
        fun c hc => hdigits c (List.mem_of_mem_drop hc)
      have hread := readMagnitude_of_point (fun c hc => hdigits c (List.mem_of_mem_take hc))
        hbehind hne
      have hcount : length - (length - places) = places := by omega
      rw [List.take_append_drop, digitsValue_digits, List.length_drop, hlength, hcount] at hread
      exact hread
    · next hle =>
      have hall : ∀ c ∈ List.replicate (places - length) '0' ++ Layout.digits number,
          c.isDigit = true := by
        intro c hc
        exact (List.mem_append.1 hc).elim isDigit_of_mem_replicate (hdigits c)
      have hread := readMagnitude_of_point (fun c => isDigit_of_mem_replicate (k := 1)) hall
        (by simp)
      have hcount : places - length + length = places := by omega
      rw [digitsValue_zeros_append, digitsValue_zeros_append, digitsValue_digits,
        List.length_append, List.length_replicate, hlength, hcount] at hread
      exact hread

/-- A positional text holds digits and a point. -/
theorem mem_positional {number : Nat} {scale : Int} {c : Char}
    (h : c ∈ Layout.plain.positional number scale) : c.isDigit = true ∨ c = '.' := by
  have hdigits : ∀ d ∈ Layout.digits number, d.isDigit = true := fun d => isDigit_of_mem_digits
  rw [Layout.positional] at h
  split at h
  · rw [Layout.plain, if_neg Bool.false_ne_true, List.append_nil] at h
    exact .inl ((List.mem_append.1 h).elim (hdigits c) isDigit_of_mem_replicate)
  · dsimp only at h
    split at h
    · rcases List.mem_append.1 h with h | h
      · exact .inl (hdigits c (List.mem_of_mem_take h))
      · rcases List.mem_cons.1 h with rfl | h
        · exact .inr rfl
        · exact .inl (hdigits c (List.mem_of_mem_drop h))
    · rcases List.mem_append.1 h with h | h
      · rcases List.mem_cons.1 h with rfl | h
        · exact .inl (by decide)
        · rcases List.mem_cons.1 h with rfl | h
          · exact .inr rfl
          · exact .inl (isDigit_of_mem_replicate h)
      · exact .inl (hdigits c h)

end Literal

namespace Natural

theorem digit?_of_isDigit {c : Char} (h : c.isDigit = true) :
    digit? 10 c = some (c.toNat - '0'.toNat) := by
  have hall : ∀ d ∈ "0123456789".toList, digit? 10 d = some (d.toNat - '0'.toNat) :=
    List.all_iff_forall_prop.1 (by decide)
  exact hall c (Literal.mem_of_isDigit h)

theorem le_ofDigitChars (text : List Char) (value : Nat) :
    value ≤ Nat.ofDigitChars 10 text value := by
  induction text generalizing value with
  | nil => exact Nat.le_refl _
  | cons c rest ih =>
    rw [Nat.ofDigitChars_cons]
    refine Nat.le_trans ?_ (ih _)
    omega

/-- Digits are read to their number if that is below the limit, since the values on the way to it
are. -/
theorem readDigits_eq_ok {text : List Char} (h : ∀ c ∈ text, c.isDigit = true) {value limit : Nat}
    (hlt : Nat.ofDigitChars 10 text value < limit) :
    readDigits 10 limit value text = .ok (Nat.ofDigitChars 10 text value) := by
  induction text generalizing value with
  | nil => rfl
  | cons c rest ih =>
    rw [Nat.ofDigitChars_cons] at hlt ⊢
    have hc : c.isDigit = true := h c List.mem_cons_self
    have hstep := Nat.lt_of_le_of_lt (le_ofDigitChars rest _) hlt
    rw [readDigits, digit?_of_isDigit hc]
    dsimp only
    rw [if_pos hstep, ih (fun d hd => h d (List.mem_cons_of_mem _ hd)) hlt]

/-- The digits of a number below the limit spell it. -/
theorem read_digits {n limit : Nat} (h : n < limit) :
    read 10 limit (Layout.digits n) = .ok n := by
  have hdigits : ∀ c ∈ Layout.digits n, c.isDigit = true := fun c => Literal.isDigit_of_mem_digits
  have hvalue : Nat.ofDigitChars 10 (Layout.digits n) 0 = n := Nat.ofDigitChars_ten_toDigits
  have hread := readDigits_eq_ok hdigits (hvalue.trans_lt h)
  rw [hvalue] at hread
  have hne := Literal.digits_ne_nil n
  generalize Layout.digits n = text at hdigits hread hne
  fun_cases read 10 limit text with
  | case1 => exact absurd rfl hne
  | case2 => exact absurd (hdigits '+' List.mem_cons_self) (by decide)
  | case3 digits => exact absurd (hdigits '+' List.mem_cons_self) (by decide)
  | case4 => exact hread

end Natural

end PlotSheet
