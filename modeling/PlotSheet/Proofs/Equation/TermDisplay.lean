import PlotSheet.Curve.Display
import PlotSheet.Proofs.Equation.Term
import PlotSheet.Proofs.Number.ReadBack
import PlotSheet.Text.Blank

/-!
# The text of a term

A term is written as its sign, the absolute value of its coefficient, and a power of `x`. Without
blanks that text is a term of the grammar, with the exponent and the coefficient that it was
written for: also if a magnitude of one is left out, and if the sign is left out ahead of the
leading term.

## Main definitions

* `termText`: the text of a term without blanks
* `Term.entry`: the exponent and the coefficient that a term says

## Main results

* `mem_displayTerm`: the characters of a term behind its sign
* `spellsTerm_termText`: the text of a term is a term that says the same
-/

namespace PlotSheet.Equation

open Text Layout PlotSheet.Polynomial

/-! ## The text of a term -/

/-- The sign ahead of a term, without the blanks beside it. -/
def termSign (leading minus : Bool) : List Char :=
  withoutBlanks (displaySign leading minus)

/-- The text of a term without blanks. -/
def termText (leading : Bool) (t : Nat × Coefficient Float) : List Char :=
  termSign leading t.2.isMinus ++ displayTerm t.1 t.2.value.abs

/-- A factor before `x`, of which a magnitude of one is left out. -/
def factorText (magnitude : Float) : List Char :=
  if magnitude == 1 then [] else plain.write magnitude

/-- The exponent and the coefficient that a term says. -/
def Term.entry {α : Type} [Scalar α] (t : Term) : Nat × Coefficient α :=
  (t.exponent, .ofLiteral t.factor)

theorem termSign_mem (leading minus : Bool) : termSign leading minus ∈ [[], ['+'], ['-']] := by
  cases leading <;> cases minus <;> decide

theorem termSign_eq_minus (leading minus : Bool) : (termSign leading minus == ['-']) = minus := by
  cases leading <;> cases minus <;> decide

theorem exists_termSign_false (minus : Bool) :
    ∃ c, termSign false minus = [c] ∧ isSign c = true := by
  cases minus with
  | true => exact ⟨'-', by decide, rfl⟩
  | false => exact ⟨'+', by decide, rfl⟩

theorem displayTerm_power (n : Nat) (magnitude : Float) :
    displayTerm (n + 2) magnitude = factorText magnitude ++ 'x' :: '^' :: digits (n + 2) := rfl

section Term

variable {x : Float}

theorem mem_term_of_isDigit {d : Char} (h : d.isDigit = true) :
    d ∈ "0123456789.infx^".toList :=
  List.mem_append_left ".infx^".toList (Literal.mem_of_isDigit h)

theorem mem_term_of_mem_write_abs (h : x.isNaN = false) :
    ∀ d ∈ plain.write x.abs, d ∈ "0123456789.infx^".toList := by
  have hletters : ∀ d ∈ ".inf".toList, d ∈ "0123456789.infx^".toList :=
    List.all_iff_forall_prop.1 (by decide)
  intro d hd
  rcases mem_write_abs x h d hd with hdigit | hword
  · exact mem_term_of_isDigit hdigit
  · exact hletters d hword

theorem mem_term_of_mem_factorText (h : x.isNaN = false) :
    ∀ d ∈ factorText x.abs, d ∈ "0123456789.infx^".toList := by
  intro d hd
  rw [factorText] at hd
  split at hd
  · cases hd
  · exact mem_term_of_mem_write_abs h d hd

/-- A term holds no sign and no blank behind its sign. -/
theorem mem_displayTerm (exponent : Nat) (h : x.isNaN = false) :
    ∀ d ∈ displayTerm exponent x.abs, d ∈ "0123456789.infx^".toList := by
  intro d hd
  match exponent with
  | 0 => exact mem_term_of_mem_write_abs h d hd
  | 1 =>
    rcases List.mem_append.1 hd with hd | hd
    · exact mem_term_of_mem_factorText h d hd
    · obtain rfl := List.mem_singleton.1 hd
      decide
  | n + 2 =>
    rw [displayTerm_power, List.mem_append, List.mem_cons, List.mem_cons] at hd
    rcases hd with hd | rfl | rfl | hd
    · exact mem_term_of_mem_factorText h d hd
    · decide
    · decide
    · exact mem_term_of_isDigit (Literal.isDigit_of_mem_digits hd)

theorem displayTerm_ne_nil (exponent : Nat) (h : x.isNaN = false) :
    displayTerm exponent x.abs ≠ [] := by
  match exponent with
  | 0 =>
    intro hnil
    obtain ⟨l, hread, -⟩ := read_sign_write_abs x h [] (by simp)
    have hwrite : plain.write x.abs = [] := hnil
    rw [hwrite] at hread
    cases hread
  | 1 => exact List.append_ne_nil_of_right_ne_nil _ (by simp)
  | n + 2 =>
    rw [displayTerm_power]
    exact List.append_ne_nil_of_right_ne_nil _ (by simp)

theorem not_isSign_of_mem_displayTerm (exponent : Nat) (h : x.isNaN = false) :
    ∀ d ∈ displayTerm exponent x.abs, isSign d = false := by
  have hsign : ∀ d ∈ "0123456789.infx^".toList, isSign d = false :=
    List.all_iff_forall_prop.1 (by decide)
  intro d hd
  exact hsign d (mem_displayTerm exponent h d hd)

theorem withoutBlanks_displayTerm (exponent : Nat) (h : x.isNaN = false) :
    withoutBlanks (displayTerm exponent x.abs) = displayTerm exponent x.abs := by
  have hblank : ∀ d ∈ "0123456789.infx^".toList, isBlank d = false :=
    List.all_iff_forall_prop.1 (by decide)
  exact withoutBlanks_eq_self fun d hd => hblank d (mem_displayTerm exponent h d hd)

/-! ## What the text of a term says -/

theorem ofLiteral_eq {l : Literal} (hvalue : l.toFloat = x) (hdefined : l.magnitude ≠ .undefined) :
    (Coefficient.ofLiteral l : Coefficient Float) = ⟨x, false⟩ := by
  have hminus : (l.negative && l.magnitude == .undefined) = false := by simp [hdefined]
  rw [Coefficient.ofLiteral, hminus]
  exact congrArg (Coefficient.mk · false) hvalue

/-- A factor says its number, also if it is one and left out. -/
theorem spellsFactor_factorText (h : x.isNaN = false) {sign : List Char}
    (hsign : sign ∈ [[], ['+'], ['-']]) :
    ∃ l, SpellsFactor (sign ++ factorText x.abs) l ∧
      Coefficient.ofLiteral l = ⟨signed (sign == ['-']) x, false⟩ := by
  rw [factorText]
  split
  · next hone =>
    have habs := Binary.eq_one_of_beq hone
    have hunit : ∀ negative, (Coefficient.ofLiteral (unitLiteral negative) : Coefficient Float) =
        ⟨signed negative x, false⟩ := by
      intro negative
      apply ofLiteral_eq
      · rw [signed, habs]
        cases negative <;> decide
      · simp [unitLiteral]
    rw [List.append_nil]
    simp only [List.mem_cons, List.not_mem_nil, or_false] at hsign
    rcases hsign with rfl | rfl | rfl
    · exact ⟨_, .nothing, hunit false⟩
    · exact ⟨_, .plus, hunit false⟩
    · exact ⟨_, .minus, hunit true⟩
  · obtain ⟨l, hread, hvalue, hdefined⟩ := read_sign_write_abs x h sign hsign
    exact ⟨l, .literal hread, ofLiteral_eq hvalue hdefined⟩

end Term

/-- The text of a term is a term with the same exponent and coefficient. -/
theorem spellsTerm_termText (leading : Bool) {exponent : Nat} {c : Coefficient Float}
    (h : c.value.isNaN = false) (hminus : c.minus = false) (hexponent : exponent < wordSize - 1) :
    ∃ t, SpellsTerm (termText leading (exponent, c)) t ∧ t.entry = (exponent, c) := by
  have hsign := termSign_mem leading c.isMinus
  have hvalue : (⟨signed (termSign leading c.isMinus == ['-']) c.value, false⟩ :
      Coefficient Float) = c := by
    have hsigned : signed c.isMinus c.value = c.value := by
      rw [Coefficient.isMinus, h, if_neg Bool.false_ne_true]
      exact signed_abs c.value h
    rw [termSign_eq_minus, hsigned, ← hminus]
  rw [termText]
  match exponent with
  | 0 =>
    obtain ⟨l, hread, hl, hdefined⟩ := read_sign_write_abs c.value h _ hsign
    exact ⟨⟨0, l⟩, .constant (SpellsFactor.literal hread).not_mem hread,
      congrArg (Prod.mk 0) ((ofLiteral_eq hl hdefined).trans hvalue)⟩
  | 1 =>
    obtain ⟨l, hfactor, hl⟩ := spellsFactor_factorText h hsign
    refine ⟨⟨1, l⟩, ?_, congrArg (Prod.mk 1) (hl.trans hvalue)⟩
    have hterm := SpellsTerm.linear hfactor
    rwa [List.append_assoc] at hterm
  | n + 2 =>
    obtain ⟨l, hfactor, hl⟩ := spellsFactor_factorText h hsign
    refine ⟨⟨n + 2, l⟩, ?_, congrArg (Prod.mk (n + 2)) (hl.trans hvalue)⟩
    have hdigits : Natural.read 10 wordSize (digits (n + 2)) = .ok (n + 2) :=
      Natural.read_digits (Nat.lt_of_lt_of_le hexponent (Nat.sub_le ..))
    have hterm := SpellsTerm.power hfactor hdigits hexponent
    rwa [List.append_assoc] at hterm

end PlotSheet.Equation
