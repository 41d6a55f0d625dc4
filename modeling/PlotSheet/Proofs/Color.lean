import PlotSheet.Color
import PlotSheet.Proofs.Number.Natural

/-!
# The texts of colors

A color is a palette name in any case of its letters, or a number sign and three bytes in base 16 of
two characters each. A byte is meant to be two hexadecimal digits, but a plus sign is also taken for
the first of them, as in every numeral. Apart from those texts, colors are exactly the palette names
and the texts of the form `#rrggbb`.

## Main definitions

* `IsHexDigit`: the character is the hexadecimal digit of a value
* `SpellsByte`, `SpellsColor`: the grammar of colors, with what they say
* `IsHexColor`, `IsPaletteName`: the two forms that colors are meant to have

## Main results

* `Rgb.read_eq_ok_iff`: the texts that are read, and the colors that they name
* `Rgb.read_grammar`: the same with the errors, and the texts with a plus sign apart
-/

namespace PlotSheet

open Text

/-! ## Hexadecimal digits -/

/-- The character is the hexadecimal digit of a value, in either case. -/
def IsHexDigit (c : Char) (d : Nat) : Prop :=
  d < 16 ∧ (c = Nat.digitChar d ∨ c = (Nat.digitChar d).toUpper)

instance (c : Char) (d : Nat) : Decidable (IsHexDigit c d) :=
  inferInstanceAs (Decidable (_ ∧ _))

/-- What holds of the sixteen digits in both cases holds of every hexadecimal digit. -/
theorem IsHexDigit.elim {p : Char → Nat → Prop}
    (hall : ∀ d : Fin 16, p (Nat.digitChar d.val) d.val ∧ p (Nat.digitChar d.val).toUpper d.val)
    {c : Char} {d : Nat} (h : IsHexDigit c d) : p c d := by
  obtain ⟨hd, rfl | rfl⟩ := h
  · exact (hall ⟨d, hd⟩).1
  · exact (hall ⟨d, hd⟩).2

/-- The digits that numerals in base 16 are read from. -/
theorem digit?_sixteen_iff {c : Char} {d : Nat} :
    Natural.digit? 16 c = some d ↔ IsHexDigit c d := by
  constructor
  · intro h
    revert h
    apply Natural.forall_digit (p := IsHexDigit)
    decide
  · apply IsHexDigit.elim
    decide

theorem IsHexDigit.toLower_eq {c : Char} {d : Nat} (h : IsHexDigit c d) :
    c.toLower = Nat.digitChar d := by
  revert h
  apply IsHexDigit.elim
  decide

theorem IsHexDigit.ne_plus {c : Char} {d : Nat} (h : IsHexDigit c d) : c ≠ '+' := by
  revert h
  apply IsHexDigit.elim (p := fun c _ => c ≠ '+')
  decide

theorem IsHexDigit.not_isBlank {c : Char} {d : Nat} (h : IsHexDigit c d) : isBlank c = false := by
  revert h
  apply IsHexDigit.elim (p := fun c _ => isBlank c = false)
  decide

/-! ## Bytes -/

/-- The text is a byte in base 16: two digits, or a plus sign and a digit. -/
inductive SpellsByte : List Char → UInt8 → Prop
  | digits {a b : Char} {high low : Nat} :
    IsHexDigit a high → IsHexDigit b low → SpellsByte [a, b] (.ofNat (16 * high + low))
  | plus {b : Char} {low : Nat} : IsHexDigit b low → SpellsByte ['+', b] (.ofNat low)

theorem SpellsByte.exists_pair {text : List Char} {v : UInt8} (h : SpellsByte text v) :
    ∃ a b, text = [a, b] := by
  cases h with
  | digits => exact ⟨_, _, rfl⟩
  | plus => exact ⟨_, _, rfl⟩

theorem SpellsByte.not_isBlank {text : List Char} {v : UInt8} (h : SpellsByte text v) :
    ∀ c ∈ text, isBlank c = false := by
  cases h with
  | digits ha hb => simpa using ⟨ha.not_isBlank, hb.not_isBlank⟩
  | plus hb => simpa using ⟨by decide, hb.not_isBlank⟩

/-- Two digits are a byte, whose own text they are in lower case. -/
theorem spellsByte_of_isHexDigit {a b : Char} {high low : Nat} (ha : IsHexDigit a high)
    (hb : IsHexDigit b low) :
    ∃ v, SpellsByte [a, b] v ∧ Rgb.hexByte v = [a, b].map Char.toLower := by
  have hhigh := ha.1
  have hlow := hb.1
  refine ⟨_, .digits ha hb, ?_⟩
  have hvalue : (UInt8.ofNat (16 * high + low)).toNat = 16 * high + low := by
    rw [UInt8.toNat_ofNat']
    omega
  have hquotient : (16 * high + low) / 16 = high := by omega
  have hrest : (16 * high + low) % 16 = low := by omega
  rw [Rgb.hexByte, hvalue, hquotient, hrest, List.map_cons, List.map_singleton, ha.toLower_eq,
    hb.toLower_eq]

/-- Without a plus sign a byte is two digits. -/
theorem SpellsByte.isHexDigit_of_mem {text : List Char} {v : UInt8} (h : SpellsByte text v)
    (hplus : '+' ∉ text) : text.length = 2 ∧ ∀ c ∈ text, ∃ d, IsHexDigit c d := by
  cases h with
  | digits ha hb => exact ⟨rfl, by simpa using ⟨⟨_, ha⟩, _, hb⟩⟩
  | plus => exact absurd List.mem_cons_self hplus

theorem isHexDigit_digitChar {d : Nat} (h : d < 16) : IsHexDigit (Nat.digitChar d) d :=
  ⟨h, .inl rfl⟩

/-- A byte is spelt by its text. -/
theorem spellsByte_hexByte (v : UInt8) : SpellsByte (Rgb.hexByte v) v := by
  have hv := v.toNat_lt
  have hbyte : SpellsByte (Rgb.hexByte v) (.ofNat (16 * (v.toNat / 16) + v.toNat % 16)) :=
    .digits (isHexDigit_digitChar (by omega)) (isHexDigit_digitChar (by omega))
  rwa [Nat.div_add_mod, UInt8.ofNat_toNat] at hbyte

/-! ## Colors -/

/-- The text names the color: three bytes behind a number sign, or a palette name. -/
inductive SpellsColor : List Char → Rgb → Prop
  | hex {r g b : List Char} {c : Rgb} :
    SpellsByte r c.red → SpellsByte g c.green → SpellsByte b c.blue →
    SpellsColor ('#' :: (r ++ g ++ b)) c
  | name {text : List Char} {entry : String × Rgb} :
    entry ∈ palette → text.map Char.toLower = entry.1.toList → SpellsColor text entry.2

/-- The text is of the form `#rrggbb`. -/
def IsHexColor (text : List Char) : Prop :=
  ∃ digits, text = '#' :: digits ∧ digits.length = 6 ∧ ∀ c ∈ digits, ∃ d, IsHexDigit c d

/-- The text is a palette name, in any case of its letters. -/
def IsPaletteName (text : List Char) : Prop :=
  ∃ entry ∈ palette, text.map Char.toLower = entry.1.toList

/-- Palette names are made of letters. -/
theorem IsPaletteName.not_mem {text : List Char} (h : IsPaletteName text) :
    '#' ∉ text ∧ '+' ∉ text := by
  obtain ⟨entry, hentry, heq⟩ := h
  have hall : ∀ entry ∈ palette, '#' ∉ entry.1.toList ∧ '+' ∉ entry.1.toList := by decide
  have hname := hall entry hentry
  rw [← heq] at hname
  constructor
  · intro hmem
    exact hname.1 (List.mem_map.2 ⟨'#', hmem, rfl⟩)
  · intro hmem
    exact hname.2 (List.mem_map.2 ⟨'+', hmem, rfl⟩)

theorem IsHexColor.not_mem_plus {text : List Char} (h : IsHexColor text) : '+' ∉ text := by
  obtain ⟨digits, rfl, -, hdigits⟩ := h
  intro hmem
  rcases List.mem_cons.1 hmem with hsign | hmem
  · cases hsign
  · obtain ⟨d, hd⟩ := hdigits _ hmem
    exact hd.ne_plus rfl

/-- A text of the form `#rrggbb` names a color, whose own text it is in lower case. -/
theorem IsHexColor.exists_spellsColor {text : List Char} (h : IsHexColor text) :
    ∃ c, SpellsColor text c ∧ c.hex = String.ofList (text.map Char.toLower) := by
  obtain ⟨digits, rfl, hlength, hdigits⟩ := h
  obtain ⟨r₁, r₂, g₁, g₂, b₁, b₂, rfl⟩ :
      ∃ r₁ r₂ g₁ g₂ b₁ b₂, digits = [r₁, r₂, g₁, g₂, b₁, b₂] := by
    match digits, hlength with
    | [r₁, r₂, g₁, g₂, b₁, b₂], _ => exact ⟨r₁, r₂, g₁, g₂, b₁, b₂, rfl⟩
  simp only [List.forall_mem_cons] at hdigits
  obtain ⟨⟨_, hr₁⟩, ⟨_, hr₂⟩, ⟨_, hg₁⟩, ⟨_, hg₂⟩, ⟨_, hb₁⟩, ⟨_, hb₂⟩, -⟩ := hdigits
  obtain ⟨red, hred, hredText⟩ := spellsByte_of_isHexDigit hr₁ hr₂
  obtain ⟨green, hgreen, hgreenText⟩ := spellsByte_of_isHexDigit hg₁ hg₂
  obtain ⟨blue, hblue, hblueText⟩ := spellsByte_of_isHexDigit hb₁ hb₂
  have hcolor : SpellsColor ('#' :: ([r₁, r₂] ++ [g₁, g₂] ++ [b₁, b₂])) ⟨red, green, blue⟩ :=
    .hex hred hgreen hblue
  refine ⟨_, hcolor, ?_⟩
  rw [Rgb.hex, Rgb.hexDigits, hredText, hgreenText, hblueText]
  rfl

/-- Without a plus sign a color has one of the two forms. -/
theorem SpellsColor.isHexColor_or_isPaletteName {text : List Char} {c : Rgb}
    (h : SpellsColor text c) (hplus : '+' ∉ text) : IsHexColor text ∨ IsPaletteName text := by
  cases h with
  | hex hr hg hb =>
    simp only [List.mem_cons, List.mem_append, not_or] at hplus
    obtain ⟨-, ⟨hrplus, hgplus⟩, hbplus⟩ := hplus
    obtain ⟨hrlength, hr⟩ := hr.isHexDigit_of_mem hrplus
    obtain ⟨hglength, hg⟩ := hg.isHexDigit_of_mem hgplus
    obtain ⟨hblength, hb⟩ := hb.isHexDigit_of_mem hbplus
    refine .inl ⟨_, rfl, ?_, ?_⟩
    · rw [List.length_append, List.length_append, hrlength, hglength, hblength]
    · intro c hc
      rcases List.mem_append.1 hc with hc | hc
      · exact (List.mem_append.1 hc).elim (hr c) (hg c)
      · exact hb c hc
  | name hentry hname => exact .inr ⟨_, hentry, hname⟩

namespace Rgb

theorem channel?_eq_some_iff {a b : Char} {v : UInt8} :
    channel? a b = some v ↔ SpellsByte [a, b] v := by
  have hread (n : Nat) : Natural.read 16 256 [a, b] = .ok n ↔
      (∃ high low, IsHexDigit a high ∧ IsHexDigit b low ∧ n = 16 * high + low) ∨
        (a = '+' ∧ IsHexDigit b n) := by
    simp only [← digit?_sixteen_iff]
    exact Natural.read_pair_eq_ok_iff
  rw [channel?]
  constructor
  · intro h
    split at h
    · next n hn =>
      obtain rfl := Option.some.inj h
      rcases (hread n).1 hn with ⟨high, low, ha, hb, rfl⟩ | ⟨rfl, hb⟩
      · exact .digits ha hb
      · exact .plus hb
    · cases h
  · intro h
    cases h with
    | digits ha hb => rw [(hread _).2 (.inl ⟨_, _, ha, hb, rfl⟩)]
    | plus hb => rw [(hread _).2 (.inr ⟨rfl, hb⟩)]

/-- Behind a number sign the three bytes of a color are read. -/
theorem ofHex?_eq_some_iff {text : List Char} {c : Rgb} :
    ofHex? text = some c ↔
      ∃ r g b, text = r ++ g ++ b ∧ SpellsByte r c.red ∧ SpellsByte g c.green ∧
        SpellsByte b c.blue := by
  constructor
  · intro h
    unfold ofHex? at h
    split at h
    · next r₁ r₂ g₁ g₂ b₁ b₂ =>
      obtain ⟨red, hred, h⟩ := Option.bind_eq_some_iff.1 h
      obtain ⟨green, hgreen, h⟩ := Option.bind_eq_some_iff.1 h
      obtain ⟨blue, hblue, h⟩ := Option.bind_eq_some_iff.1 h
      obtain rfl := Option.some.inj h
      exact ⟨[r₁, r₂], [g₁, g₂], [b₁, b₂], rfl, channel?_eq_some_iff.1 hred,
        channel?_eq_some_iff.1 hgreen, channel?_eq_some_iff.1 hblue⟩
    · cases h
  · rintro ⟨r, g, b, rfl, hred, hgreen, hblue⟩
    obtain ⟨r₁, r₂, rfl⟩ := hred.exists_pair
    obtain ⟨g₁, g₂, rfl⟩ := hgreen.exists_pair
    obtain ⟨b₁, b₂, rfl⟩ := hblue.exists_pair
    have hopen : ofHex? ([r₁, r₂] ++ [g₁, g₂] ++ [b₁, b₂]) = do
      return ⟨← channel? r₁ r₂, ← channel? g₁ g₂, ← channel? b₁ b₂⟩ := rfl
    rw [hopen, channel?_eq_some_iff.2 hred, channel?_eq_some_iff.2 hgreen,
      channel?_eq_some_iff.2 hblue]
    rfl

theorem ofName?_eq_some_iff {text : List Char} {c : Rgb} :
    ofName? (String.ofList text) = some c ↔
      ∃ entry ∈ palette, text.map Char.toLower = entry.1.toList ∧ entry.2 = c := by
  rw [ofName?, String.toList_ofList]
  constructor
  · intro h
    obtain ⟨entry, hfind, hc⟩ := Option.map_eq_some_iff.1 h
    have hname := List.find?_some hfind
    rw [beq_iff_eq] at hname
    exact ⟨entry, List.mem_of_find?_eq_some hfind, hname.symm, hc⟩
  · rintro ⟨entry, hentry, hname, rfl⟩
    have hfind : ∀ entry ∈ palette,
        (palette.find? fun e => e.1.toList == entry.1.toList) = some entry := by decide
    rw [hname, hfind entry hentry]
    rfl

theorem elim_eq_ok_iff {ε β : Type} {o : Option β} {e : ε} {b : β} :
    o.elim (Except.error e) Except.ok = .ok b ↔ o = some b := by
  cases o <;> simp

theorem eq_of_elim_eq_error {ε β : Type} {o : Option β} {e f : ε}
    (h : o.elim (Except.error e) Except.ok = .error f) : f = e := by
  cases o with
  | none => exact (Except.error.inj h).symm
  | some b => cases h

/-- The texts that are read, and the colors that they name. -/
theorem read_eq_ok_iff {text : String} {c : Rgb} :
    read text = .ok c ↔ SpellsColor (trim text.toList) c := by
  unfold read
  dsimp only
  generalize trim text.toList = trimmed
  split
  · next digits =>
    rw [elim_eq_ok_iff, ofHex?_eq_some_iff]
    constructor
    · rintro ⟨r, g, b, rfl, hred, hgreen, hblue⟩
      exact .hex hred hgreen hblue
    · intro h
      cases h with
      | hex hred hgreen hblue => exact ⟨_, _, _, rfl, hred, hgreen, hblue⟩
      | name hentry hname =>
        exact absurd List.mem_cons_self (IsPaletteName.not_mem ⟨_, hentry, hname⟩).1
  · next hsign =>
    rw [elim_eq_ok_iff, ofName?_eq_some_iff]
    constructor
    · rintro ⟨entry, hentry, heq, rfl⟩
      exact .name hentry heq
    · intro h
      cases h with
      | hex => exact absurd rfl (hsign _)
      | name hentry hname => exact ⟨_, hentry, hname, rfl⟩

/-- The first character decides the kind of an error. -/
theorem kind_of_read_eq_error {text : String} {e : ColorError} (h : read text = .error e) :
    (['#'] <+: trim text.toList ∧ e = .badHex (String.ofList (trim text.toList))) ∨
      (¬ ['#'] <+: trim text.toList ∧
        e = .unknownName (String.ofList (trim text.toList))) := by
  unfold read at h
  dsimp only at h
  generalize trim text.toList = trimmed at h ⊢
  split at h
  · next digits => exact .inl ⟨⟨digits, rfl⟩, eq_of_elim_eq_error h⟩
  · next hsign =>
    refine .inr ⟨?_, eq_of_elim_eq_error h⟩
    rintro ⟨rest, rfl⟩
    exact hsign rest rfl

theorem read_eq_error_iff {text : String} {e : ColorError} :
    read text = .error e ↔
      (¬ ∃ c, SpellsColor (trim text.toList) c) ∧
        ((['#'] <+: trim text.toList ∧ e = .badHex (String.ofList (trim text.toList))) ∨
          (¬ ['#'] <+: trim text.toList ∧
            e = .unknownName (String.ofList (trim text.toList)))) := by
  constructor
  · intro h
    refine ⟨?_, kind_of_read_eq_error h⟩
    rintro ⟨c, hc⟩
    rw [read_eq_ok_iff.2 hc] at h
    cases h
  · rintro ⟨hnone, hkind⟩
    cases hread : read text with
    | ok c => exact absurd ⟨c, read_eq_ok_iff.1 hread⟩ hnone
    | error f =>
      rcases hkind with ⟨hsign, rfl⟩ | ⟨hsign, rfl⟩
      · rcases kind_of_read_eq_error hread with ⟨-, rfl⟩ | ⟨hother, -⟩
        · rfl
        · exact absurd hsign hother
      · rcases kind_of_read_eq_error hread with ⟨hother, -⟩ | ⟨-, rfl⟩
        · exact absurd hother hsign
        · rfl

/-- The text of a color is read as it. -/
theorem read_hex (c : Rgb) : read c.hex = .ok c := by
  have hcolor : SpellsColor ('#' :: c.hexDigits) c :=
    .hex (spellsByte_hexByte _) (spellsByte_hexByte _) (spellsByte_hexByte _)
  have htrim : trim ('#' :: c.hexDigits) = '#' :: c.hexDigits := by
    apply trim_eq_self
    simp only [hexDigits, List.forall_mem_cons, List.forall_mem_append]
    exact ⟨by decide, ⟨(spellsByte_hexByte _).not_isBlank, (spellsByte_hexByte _).not_isBlank⟩,
      (spellsByte_hexByte _).not_isBlank⟩
  rwa [read_eq_ok_iff, hex, String.toList_ofList, htrim]

/-- **The texts of colors.** A text is read exactly if, without the blanks at its ends, it names a
color, and each other text fails with an error for its first character. Apart from the texts with a
plus sign those that are read are the palette names and those of the form `#rrggbb`, and the latter
are in lower case the text of the color that they name. The text of every color is read as it. -/
theorem read_grammar (text : String) :
    (∀ c, read text = .ok c ↔ SpellsColor (trim text.toList) c) ∧
    (∀ e, read text = .error e ↔
      (¬ ∃ c, SpellsColor (trim text.toList) c) ∧
        ((['#'] <+: trim text.toList ∧ e = .badHex (String.ofList (trim text.toList))) ∨
          (¬ ['#'] <+: trim text.toList ∧
            e = .unknownName (String.ofList (trim text.toList))))) ∧
    (((∃ c, read text = .ok c) ∧ '+' ∉ trim text.toList) ↔
      IsHexColor (trim text.toList) ∨ IsPaletteName (trim text.toList)) ∧
    (IsHexColor (trim text.toList) → ∃ c, read text = .ok c ∧
      c.hex = String.ofList ((trim text.toList).map Char.toLower)) ∧
    (∀ c : Rgb, read c.hex = .ok c) := by
  simp only [read_eq_error_iff, read_hex, implies_true, and_true, true_and, read_eq_ok_iff]
  constructor
  · constructor
    · rintro ⟨⟨c, hc⟩, hplus⟩
      exact hc.isHexColor_or_isPaletteName hplus
    · rintro (h | h)
      · obtain ⟨c, hc, -⟩ := h.exists_spellsColor
        exact ⟨⟨c, hc⟩, h.not_mem_plus⟩
      · have hplus := h.not_mem.2
        obtain ⟨entry, hentry, hname⟩ := h
        exact ⟨⟨entry.2, .name hentry hname⟩, hplus⟩
  · exact IsHexColor.exists_spellsColor

/-- A plus sign passes for the first digit of a byte. -/
theorem not_forall_isHexColor_or_isPaletteName :
    ¬ ∀ text c, read text = .ok c →
      IsHexColor (trim text.toList) ∨ IsPaletteName (trim text.toList) := by
  intro hall
  have hbyte : SpellsByte ['+', 'f'] 15 := .plus (isHexDigit_digitChar (d := 15) (by decide))
  have hcolor : SpellsColor ('#' :: (['+', 'f'] ++ ['+', 'f'] ++ ['+', 'f'])) ⟨15, 15, 15⟩ :=
    .hex hbyte hbyte hbyte
  have hread : read "#+f+f+f" = .ok ⟨15, 15, 15⟩ := read_eq_ok_iff.2 hcolor
  rcases hall _ _ hread with h | h
  · exact absurd h.not_mem_plus (by decide)
  · exact absurd h.not_mem.2 (by decide)

end Rgb

end PlotSheet
