import Mathlib
import PlotSheet.Number.Binary

/-!
# Packed floating-point numbers

Core reads a floating-point number off its bits as an infinity, an undefined value, a zero, or a
mantissa times a power of two. Each number is packed from exactly one such form, and arithmetic is
done on the forms. This module ties them to the fields that the library reads off the bits itself.

## Main definitions

* `IsCanonical`: the mantissas and exponents of finite numbers
* `Canonical`: the forms that numbers are unpacked to
* `number`: the floating-point number packed from a form

## Main results

* `exists_eq_number`: every number is packed from a canonical form
* `unpack_number`: a canonical form is unpacked from the number packed from it
* `ofFloat?_number_finite`, `ofFloat?_number_zero`, `ofFloat?_number_infinity`: the exact values of
  packed numbers
-/

namespace PlotSheet.Binary

open Float.Model Float.Model.UnpackedFloat

/-- The mantissas and exponents of finite numbers other than zero: full mantissas, and all others
with the least exponent. -/
structure IsCanonical (mantissa : Nat) (exponent : Int) : Prop where
  pos : 0 < mantissa
  lt : mantissa < 2 * fractionSize
  least : leastExponent ≤ exponent
  greatest : exponent ≤ 971
  full : fractionSize ≤ mantissa ∨ exponent = leastExponent

/-- The forms that numbers are unpacked to. -/
inductive Canonical : UnpackedFloat → Prop
  | notANumber : Canonical .notANumber
  | infinity (s : Sign) : Canonical (.infinity s)
  | zero (s : Sign) : Canonical (.zero s)
  | finite (s : Sign) {m : Nat} {e : Int} (h : IsCanonical m e) : Canonical (.finite s m e h.pos)

/-- The floating-point number packed from a form. -/
def number (u : UnpackedFloat) : Float :=
  .ofModel (.pack u)

/-! ## The fields of a word -/

section Fields

variable (s : Sign) (e : BitVec 11) (m : BitVec 52)

theorem toNat_packComponents :
    (packComponents Format.binary64 s e m).toNat =
      (s.toBitVec.toNat * exponentSize + e.toNat) * fractionSize + m.toNat := by
  have he := e.isLt
  have hm := m.isLt
  change ((s.toBitVec ++ e) ++ m).toNat = _
  rw [BitVec.toNat_append, ← Nat.shiftLeft_add_eq_or_of_lt hm, BitVec.toNat_append,
    ← Nat.shiftLeft_add_eq_or_of_lt he, Nat.shiftLeft_eq, Nat.shiftLeft_eq]
  rfl

/-- Every word is packed from its fields. -/
theorem exists_eq_packComponents (b : BitVec 64) :
    ∃ s e m, b = packComponents Format.binary64 s e m :=
  ⟨_, _, _, (@packComponents_unpackSign_unpackExponent_unpackMantissa Format.binary64 b).symm⟩

theorem unpack_infinity :
    UnpackedFloat.unpack Format.binary64 (packComponents Format.binary64 s (-1#11) 0#52) =
      .infinity s := by
  rw [UnpackedFloat.unpack]
  simp

variable {e m}

theorem unpack_notANumber (hm : m ≠ 0#52) :
    UnpackedFloat.unpack Format.binary64 (packComponents Format.binary64 s (-1#11) m) =
      .notANumber := by
  rw [UnpackedFloat.unpack]
  simp [hm]

theorem unpack_zero :
    UnpackedFloat.unpack Format.binary64 (packComponents Format.binary64 s 0#11 0#52) =
      .zero s := by
  rw [UnpackedFloat.unpack]
  simp

theorem unpack_subnormal (hm : 0 < m.toNat) :
    UnpackedFloat.unpack Format.binary64 (packComponents Format.binary64 s 0#11 m) =
      .finite s m.toNat leastExponent hm := by
  have hne : m ≠ 0#52 := by
    rintro rfl
    exact absurd hm (by decide)
  rw [UnpackedFloat.unpack]
  simp [hne]
  rfl

theorem unpack_normal (hzero : e ≠ 0#11) (hones : e ≠ -1#11) :
    UnpackedFloat.unpack Format.binary64 (packComponents Format.binary64 s e m) =
      .finite s (fractionSize + m.toNat) (e.toNat - 1075) (Nat.add_pos_left (by decide) _) := by
  have hm := m.isLt
  have hmantissa : (1#1 ++ m).toNat = fractionSize + m.toNat := by
    rw [BitVec.toNat_append, ← Nat.shiftLeft_add_eq_or_of_lt hm, Nat.shiftLeft_eq]
    rfl
  rw [UnpackedFloat.unpack]
  simp only [unpackExponent_packComponents, unpackMantissa_packComponents,
    unpackSign_packComponents, Sign.ofBitVec_toBitVec, if_neg hones, if_neg hzero, hmantissa]
  rfl

end Fields

/-! ## Canonical forms -/

section Forms

variable {m : Nat} {e : Int}

theorem log2_of_full (hfull : fractionSize ≤ m) (hlt : m < 2 * fractionSize) : m.log2 = 52 := by
  have hne : m ≠ 0 := by
    rintro rfl
    exact absurd hfull (by decide)
  exact (Nat.log2_eq_iff hne).2 ⟨hfull, hlt⟩

theorem not_overflow (h : IsCanonical m e) :
    ¬ 2 ^ 11 ≤ (e + Format.binary64.exponentBias + (52 : Nat)).toNat + 1 := by
  have hbias : Format.binary64.exponentBias = 1023 := rfl
  have := h.greatest
  rw [hbias]
  omega

/-- A full mantissa is packed without its leading bit. -/
theorem pack_normal (s : Sign) (h : IsCanonical m e) (hfull : fractionSize ≤ m) :
    UnpackedFloat.pack Format.binary64 (.finite s m e h.pos) =
      packComponents Format.binary64 s (BitVec.ofNat 11 (e + 1075).toNat) (BitVec.ofNat 52 m) := by
  have hbits : m.log2 + 1 = Format.binary64.mantissaBits := by
    rw [log2_of_full hfull h.lt]
    rfl
  have hbias : (e + Format.binary64.exponentBias + (52 : Nat)).toNat = (e + 1075).toNat := by
    rw [Int.add_assoc]
    rfl
  simp only [UnpackedFloat.pack]
  rw [if_neg (not_overflow h), if_pos hbits, hbias]

theorem pack_subnormal (s : Sign) (h : IsCanonical m e) (hlt : m < fractionSize) :
    UnpackedFloat.pack Format.binary64 (.finite s m e h.pos) =
      packComponents Format.binary64 s 0#11 (BitVec.ofNat 52 m) := by
  have hbits : m.log2 + 1 ≠ Format.binary64.mantissaBits := by
    have hlog : m.log2 < 52 := (Nat.log2_lt (Nat.pos_iff_ne_zero.1 h.pos)).2 hlt
    have hwidth : Format.binary64.mantissaBits = 53 := rfl
    omega
  simp only [UnpackedFloat.pack]
  rw [if_neg (not_overflow h), if_neg hbits]

/-- A canonical form is unpacked from the word it is packed into. -/
theorem unpack_pack {u : UnpackedFloat} (h : Canonical u) :
    UnpackedFloat.unpack Format.binary64 (UnpackedFloat.pack Format.binary64 u) = u := by
  cases h with
  | notANumber => exact unpack_notANumber .positive (by decide)
  | infinity s => exact unpack_infinity s
  | zero s => exact unpack_zero s
  | @finite s m e h =>
    have hpos := h.pos
    have hlt := h.lt
    have hleast := h.least
    have hgreatest := h.greatest
    simp only [fractionSize, leastExponent] at hlt hleast
    -- a full mantissa loses its leading bit, any other one has the least exponent
    by_cases hfull : fractionSize ≤ m
    · have hexponent : (BitVec.ofNat 11 (e + 1075).toNat).toNat = (e + 1075).toNat := by
        rw [BitVec.toNat_ofNat]
        omega
      have hfraction : fractionSize + (BitVec.ofNat 52 m).toNat = m := by
        rw [BitVec.toNat_ofNat]
        simp only [fractionSize] at hfull ⊢
        omega
      have hzero : BitVec.ofNat 11 (e + 1075).toNat ≠ 0#11 := by
        intro heq
        have := congrArg BitVec.toNat heq
        rw [hexponent] at this
        simp only [BitVec.toNat_ofNat] at this
        omega
      have hones : BitVec.ofNat 11 (e + 1075).toNat ≠ -1#11 := by
        intro heq
        have := congrArg BitVec.toNat heq
        rw [hexponent] at this
        change (e + 1075).toNat = 2047 at this
        omega
      have hvalue : (((e + 1075).toNat : Nat) : Int) - 1075 = e := by omega
      rw [pack_normal s h hfull, unpack_normal s hzero hones]
      simp only [hexponent, hfraction, hvalue]
    · have hleastExponent : e = leastExponent := h.full.resolve_left hfull
      have hlt' : m < fractionSize := Nat.lt_of_not_le hfull
      have hfraction : (BitVec.ofNat 52 m).toNat = m := by
        rw [BitVec.toNat_ofNat]
        exact Nat.mod_eq_of_lt hlt'
      subst hleastExponent
      rw [pack_subnormal s h hlt', unpack_subnormal s (hfraction.symm ▸ hpos)]
      simp only [hfraction]

/-- Every word is unpacked to a canonical form. -/
theorem canonical_unpack (b : BitVec 64) :
    Canonical (UnpackedFloat.unpack Format.binary64 b) := by
  obtain ⟨s, e, m, rfl⟩ := exists_eq_packComponents b
  have he : e.toNat < exponentSize := e.isLt
  have hm : m.toNat < fractionSize := m.isLt
  simp only [exponentSize, fractionSize] at he hm
  by_cases hones : e = -1#11
  · subst hones
    by_cases hzero : m = 0#52
    · subst hzero
      rw [unpack_infinity]
      exact .infinity s
    · rw [unpack_notANumber s hzero]
      exact .notANumber
  · by_cases hzero : e = 0#11
    · subst hzero
      by_cases hzero : m = 0#52
      · subst hzero
        rw [unpack_zero]
        exact .zero s
      · have hpos : 0 < m.toNat := Nat.pos_of_ne_zero fun h => hzero (BitVec.eq_of_toNat_eq h)
        rw [unpack_subnormal s hpos]
        exact .finite s ⟨hpos, by simp only [fractionSize]; omega, le_refl _, by decide, .inr rfl⟩
    · have hlow : e.toNat ≠ 0 := fun h => hzero (BitVec.eq_of_toNat_eq h)
      have hhigh : e.toNat ≠ 2047 := fun h => hones (BitVec.eq_of_toNat_eq h)
      have hcanonical : IsCanonical (fractionSize + m.toNat) (e.toNat - 1075) := by
        refine ⟨Nat.add_pos_left (by decide) _, ?_, ?_, by omega, .inl (Nat.le_add_right _ _)⟩
        · simp only [fractionSize]
          omega
        · simp only [leastExponent]
          omega
      rw [unpack_normal s hzero hones]
      exact .finite s hcanonical

end Forms

/-! ## Numbers and their forms -/

/-- Every number is packed from a canonical form. -/
theorem exists_eq_number (x : Float) : ∃ u, Canonical u ∧ x = number u := by
  obtain ⟨⟨bits, hvalid⟩⟩ := x
  refine ⟨_, canonical_unpack bits.toBitVec, ?_⟩
  simp only [number, Float.Model.pack, pack_unpack_of_valid hvalid]

/-- A canonical form is unpacked from the number packed from it. -/
theorem unpack_number {u : UnpackedFloat} (h : Canonical u) : (number u).toModel.unpack = u :=
  unpack_pack h

/-! ## The fields that the library reads -/

/-- Whether a sign is written as a minus. -/
def isNegative (s : Sign) : Bool :=
  s == .negative

section Readers

variable {u : UnpackedFloat} {s : Sign} {e : BitVec 11} {m : BitVec 52}

theorem toBits_number (h : UnpackedFloat.pack Format.binary64 u =
      packComponents Format.binary64 s e m) :
    (number u).toBits.toNat =
      (s.toBitVec.toNat * exponentSize + e.toNat) * fractionSize + m.toNat :=
  (congrArg BitVec.toNat h).trans (toNat_packComponents s e m)

theorem signBit_of_pack (h : UnpackedFloat.pack Format.binary64 u =
      packComponents Format.binary64 s e m) : signBit (number u) = isNegative s := by
  have he : e.toNat < exponentSize := e.isLt
  have hm : m.toNat < fractionSize := m.isLt
  have hsign : (number u).toBits.toNat / (exponentSize * fractionSize) = s.toBitVec.toNat := by
    rw [toBits_number h]
    simp only [exponentSize, fractionSize] at he hm ⊢
    omega
  rw [signBit, hsign]
  cases s <;> rfl

theorem exponentField_of_pack (h : UnpackedFloat.pack Format.binary64 u =
      packComponents Format.binary64 s e m) : exponentField (number u) = e.toNat := by
  have he : e.toNat < exponentSize := e.isLt
  have hm : m.toNat < fractionSize := m.isLt
  rw [exponentField, toBits_number h]
  simp only [exponentSize, fractionSize] at he hm ⊢
  omega

theorem fractionField_of_pack (h : UnpackedFloat.pack Format.binary64 u =
      packComponents Format.binary64 s e m) : fractionField (number u) = m.toNat := by
  have hm : m.toNat < fractionSize := m.isLt
  rw [fractionField, toBits_number h]
  simp only [fractionSize] at hm ⊢
  omega

end Readers

theorem signBit_number_infinity (s : Sign) : signBit (number (.infinity s)) = isNegative s :=
  signBit_of_pack (e := -1#11) (m := 0#52) rfl

theorem ofFloat?_number_infinity (s : Sign) : ofFloat? (number (.infinity s)) = none := by
  have hfield := exponentField_of_pack (u := .infinity s) (s := s) (e := -1#11) (m := 0#52) rfl
  rw [ofFloat?, hfield]
  rfl

theorem signBit_number_zero (s : Sign) : signBit (number (.zero s)) = isNegative s :=
  signBit_of_pack (e := 0#11) (m := 0#52) rfl

theorem ofFloat?_number_zero (s : Sign) :
    ofFloat? (number (.zero s)) = some ⟨isNegative s, 0, leastExponent⟩ := by
  have hfield := exponentField_of_pack (u := .zero s) (s := s) (e := 0#11) (m := 0#52) rfl
  have hfraction := fractionField_of_pack (u := .zero s) (s := s) (e := 0#11) (m := 0#52) rfl
  rw [ofFloat?, hfield, hfraction, signBit_number_zero]
  rfl

/-- The library reads the mantissa and the exponent of a finite number off its bits. -/
theorem ofFloat?_number_finite (s : Sign) {m : Nat} {e : Int} (h : IsCanonical m e) :
    ofFloat? (number (.finite s m e h.pos)) = some ⟨isNegative s, m, e⟩ ∧
      signBit (number (.finite s m e h.pos)) = isNegative s := by
  have hlt := h.lt
  have hleast := h.least
  have hgreatest := h.greatest
  simp only [fractionSize, leastExponent] at hlt hleast
  by_cases hfull : fractionSize ≤ m
  · have hpack := pack_normal s h hfull
    have hfield : exponentField (number (.finite s m e h.pos)) = (e + 1075).toNat := by
      rw [exponentField_of_pack hpack, BitVec.toNat_ofNat]
      omega
    have hfraction : fractionField (number (.finite s m e h.pos)) = m - fractionSize := by
      rw [fractionField_of_pack hpack, BitVec.toNat_ofNat]
      simp only [fractionSize] at hfull ⊢
      omega
    have hvalue : leastExponent + (((e + 1075).toNat - 1 : Nat) : Int) = e := by
      simp only [leastExponent]
      omega
    have hones : (e + 1075).toNat ≠ exponentSize - 1 := by
      simp only [exponentSize]
      omega
    have hzero : (e + 1075).toNat ≠ 0 := by omega
    refine ⟨?_, signBit_of_pack hpack⟩
    simp only [ofFloat?, hfield, if_neg hones, if_neg hzero, hfraction, signBit_of_pack hpack,
      hvalue, Nat.add_sub_cancel' hfull]
  · have hlt' : m < fractionSize := Nat.lt_of_not_le hfull
    have hpack := pack_subnormal s h hlt'
    have hfield : exponentField (number (.finite s m e h.pos)) = 0 :=
      exponentField_of_pack hpack
    have hfraction : fractionField (number (.finite s m e h.pos)) = m := by
      rw [fractionField_of_pack hpack, BitVec.toNat_ofNat]
      exact Nat.mod_eq_of_lt hlt'
    have hleastExponent : e = leastExponent := h.full.resolve_left hfull
    refine ⟨?_, signBit_of_pack hpack⟩
    rw [ofFloat?, hfield, hfraction, signBit_of_pack hpack, hleastExponent]
    rfl

end PlotSheet.Binary
