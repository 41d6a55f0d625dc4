import PlotSheet.Proofs.Number.Decimal
import PlotSheet.Proofs.Number.Digits
import PlotSheet.Proofs.Number.Literal

/-!
# Numbers are read back

The text of every number but an undefined one is a literal, and that literal stands for the number.
The text is a minus sign for negative numbers, and the text of the absolute value.

## Main definitions

* `signed`: the number with a given sign and absolute value

## Main results

* `write_eq_append`, `signed_abs`: a number by its sign and its absolute value
* `mem_write`, `mem_write_abs`: the characters of a text
* `read_sign_write_abs`: the text of an absolute value behind a sign
* `read_write`: the text of a number is a literal that stands for it
-/

namespace PlotSheet.Layout

open Binary Float.Model Float.Model.UnpackedFloat

/-- The number with the given sign and the absolute value of `x`. -/
def signed (negative : Bool) (x : Float) : Float :=
  if negative then -x.abs else x.abs

/-! ## Signs -/

/-- A number is its absolute value with its sign. -/
theorem signed_abs (x : Float) (h : x.isNaN = false) : signed (signBit x) x = x := by
  obtain ⟨u, hu, rfl⟩ := exists_eq_number x
  rw [isNaN_number hu] at h
  rw [signed, number_abs hu, number_neg (canonical_abs hu)]
  cases hu with
  | notANumber => cases h
  | infinity s =>
    rw [signBit_number_infinity]
    cases s <;> rfl
  | zero s =>
    rw [signBit_number_zero]
    cases s <;> rfl
  | finite s hm =>
    rw [(ofFloat?_number_finite s hm).2]
    cases s <;> rfl

/-- A number is written as the text of its absolute value, behind a minus if it is negative. -/
theorem write_eq_append (x : Float) (h : x.isNaN = false) :
    plain.write x = (if signBit x then ['-'] else []) ++ plain.write x.abs := by
  obtain ⟨u, hu, rfl⟩ := exists_eq_number x
  rw [isNaN_number hu] at h
  rw [number_abs hu]
  cases hu with
  | notANumber => cases h
  | infinity s =>
    cases s <;> rfl
  | zero s =>
    cases s <;> rfl
  | finite s hm =>
    obtain ⟨hvalue, hsign⟩ := ofFloat?_number_finite s hm
    have habs := (ofFloat?_number_finite .positive hm).1
    rw [UnpackedFloat.abs, write, hvalue, hsign, write, habs]
    cases s <;> rfl

/-! ## Absolute values -/

theorem write_infinity : plain.write (number (.infinity .positive)) = "inf".toList := by
  decide

theorem write_zero : plain.write (number (.zero .positive)) = plain.positional 0 0 := by
  decide

theorem write_finite {m : Nat} {e : Int} (h : IsCanonical m e) :
    plain.write (number (.finite .positive m e h.pos)) =
      plain.positional (Shortest.shortest m e).1 (Shortest.shortest m e).2 := by
  have hvalue := (ofFloat?_number_finite .positive h).1
  rw [write, hvalue]
  dsimp only
  rw [magnitude, if_neg h.pos.ne']
  rfl

/-- The shortest decimal of a number is read back to it, with its digits shifted to a scale of zero
or below as they are in its positional text. -/
theorem toFloat_shortest {m : Nat} {e : Int} (h : IsCanonical m e) (negative : Bool) :
    (⟨negative, .decimal ((Shortest.shortest m e).1 * 10 ^ (Shortest.shortest m e).2.toNat)
      (-((-(Shortest.shortest m e).2).toNat : Int))⟩ : Literal).toFloat =
      number (.finite (signOf negative) m e h.pos) := by
  have hmem := Shortest.shortest_mem h
  generalize (Shortest.shortest m e).1 = digits at *
  generalize (Shortest.shortest m e).2 = scale at *
  have hvalue : (digits : Rat) * 10 ^ scale =
      ((digits * 10 ^ scale.toNat : Nat) : Rat) * 10 ^ (-((-scale).toNat : Int)) := by
    have hten : (10 : Rat) ≠ 0 := by norm_num
    rw [Nat.cast_mul, Nat.cast_pow, Nat.cast_ofNat, ← Shortest.zpow_mul_pow_toNat hten scale,
      zpow_neg, zpow_natCast, mul_assoc, mul_assoc, mul_inv_cancel₀ (pow_ne_zero _ hten), mul_one]
  rw [hvalue] at hmem
  refine toFloat_decimal h (Nat.pos_of_ne_zero fun hzero => ?_) hmem negative
  have hpositive := le_of_mem h hmem
  rw [hzero, Nat.cast_zero, zero_mul] at hpositive
  exact absurd hpositive (not_le.2 (by positivity))

/-- The text of an absolute value spells it. -/
theorem readMagnitude_write_abs (x : Float) (h : x.isNaN = false) :
    ∃ m, m ≠ .undefined ∧ Literal.readMagnitude (plain.write x.abs) = some m ∧
      ∀ negative, (⟨negative, m⟩ : Literal).toFloat = signed negative x := by
  obtain ⟨u, hu, rfl⟩ := exists_eq_number x
  rw [isNaN_number hu] at h
  simp only [signed, number_abs hu]
  cases hu with
  | notANumber => cases h
  | infinity s =>
    rw [UnpackedFloat.abs, write_infinity]
    refine ⟨.infinity, by decide, rfl, fun negative => ?_⟩
    cases negative <;> rfl
  | zero s =>
    rw [UnpackedFloat.abs, write_zero]
    refine ⟨.decimal 0 0, by decide, Literal.readMagnitude_positional 0 0, fun negative => ?_⟩
    cases negative <;> rfl
  | finite s hm =>
    rw [UnpackedFloat.abs, write_finite hm]
    refine ⟨.decimal _ _, by simp, Literal.readMagnitude_positional _ _, fun negative => ?_⟩
    rw [toFloat_shortest hm, number_neg (.finite .positive hm)]
    cases negative <;> rfl

/-- The texts of absolute values have no signs and no letters but those of infinity. -/
theorem mem_write_abs (x : Float) (h : x.isNaN = false) :
    ∀ c ∈ plain.write x.abs, c.isDigit = true ∨ c ∈ ".inf".toList := by
  obtain ⟨u, hu, rfl⟩ := exists_eq_number x
  rw [isNaN_number hu] at h
  rw [number_abs hu]
  cases hu with
  | notANumber => cases h
  | infinity s =>
    rw [UnpackedFloat.abs, write_infinity]
    exact List.all_iff_forall_prop.1 (by decide)
  | zero s =>
    rw [UnpackedFloat.abs, write_zero]
    exact List.all_iff_forall_prop.1 (by decide)
  | finite s hm =>
    rw [UnpackedFloat.abs, write_finite hm]
    intro c hc
    rcases Literal.mem_positional hc with hc | rfl
    · exact .inl hc
    · exact .inr (by decide)

/-- The texts of numbers have no characters but digits, a minus, a point and the letters of
infinity. -/
theorem mem_write {x : Float} (h : x.isNaN = false) :
    ∀ c ∈ plain.write x, c ∈ "0123456789-.inf".toList := by
  intro c hc
  rw [write_eq_append x h, List.mem_append] at hc
  rcases hc with hc | hc
  · split at hc
    · obtain rfl := List.mem_singleton.1 hc
      decide
    · cases hc
  · rcases mem_write_abs x h c hc with hdigit | hword
    · exact List.mem_append_left "-.inf".toList (Literal.mem_of_isDigit hdigit)
    · exact List.mem_append_right "0123456789-".toList hword

/-! ## Literals -/

theorem splitSign_write_abs (x : Float) (h : x.isNaN = false) :
    Literal.splitSign (plain.write x.abs) = (false, plain.write x.abs) := by
  have hmem := mem_write_abs x h
  generalize plain.write x.abs = text at hmem
  fun_cases Literal.splitSign text with
  | case1 rest => exact absurd (hmem '-' List.mem_cons_self) (by decide)
  | case2 rest => exact absurd (hmem '+' List.mem_cons_self) (by decide)
  | case3 => rfl

/-- The text of an absolute value behind an optional sign is a literal that stands for the signed
number. -/
theorem read_sign_write_abs (x : Float) (h : x.isNaN = false) (sign : List Char)
    (hsign : sign ∈ [[], ['+'], ['-']]) :
    ∃ l, Literal.read (sign ++ plain.write x.abs) = .ok l ∧
      l.toFloat = signed (sign == ['-']) x ∧ l.magnitude ≠ .undefined := by
  obtain ⟨m, hdefined, hread, hvalue⟩ := readMagnitude_write_abs x h
  have hsplit : Literal.splitSign (sign ++ plain.write x.abs) =
      (sign == ['-'], plain.write x.abs) := by
    simp only [List.mem_cons, List.not_mem_nil, or_false] at hsign
    rcases hsign with rfl | rfl | rfl
    · exact splitSign_write_abs x h
    · rfl
    · rfl
  have hne : (sign ++ plain.write x.abs).isEmpty = false := by
    rw [List.isEmpty_eq_false_iff]
    refine List.append_ne_nil_of_right_ne_nil _ fun hnil => ?_
    rw [hnil] at hread
    cases hread
  refine ⟨⟨sign == ['-'], m⟩, ?_, hvalue _, hdefined⟩
  rw [Literal.read, hne, if_neg Bool.false_ne_true, hsplit]
  dsimp only
  rw [hread]

/-- **The text of a number is a literal that stands for it.** -/
theorem read_write (x : Float) (h : x.isNaN = false) :
    ∃ l, Literal.read (plain.write x) = .ok l ∧ l.toFloat = x ∧ l.magnitude ≠ .undefined := by
  have hsign : (if signBit x then ['-'] else []) ∈ [[], ['+'], ['-']] := by
    split <;> simp
  have hminus : ((if signBit x then ['-'] else []) == ['-']) = signBit x := by
    cases signBit x <;> rfl
  obtain ⟨l, hread, hvalue, hdefined⟩ := read_sign_write_abs x h _ hsign
  rw [hminus, signed_abs x h] at hvalue
  rw [write_eq_append x h]
  exact ⟨l, hread, hvalue, hdefined⟩

end PlotSheet.Layout
