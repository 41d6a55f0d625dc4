import Mathlib.Data.List.TakeWhile
import PlotSheet.Number.Literal

/-!
# The characters of literals

A literal is made of digits, signs, points and the letters of its words and of its exponent mark,
so that any other character ends it.

## Main definitions

* `Literal.isCharacter`: the characters that literals are made of

## Main results

* `Literal.isCharacter_of_mem`: a text with another character spells no literal
* `Literal.digits_of_read`: what stands around the point of a literal
* `Literal.read_t`: no literal starts with `t`
-/

namespace PlotSheet.Literal

/-- The characters that literals are made of. -/
def isCharacter (c : Char) : Bool :=
  c.isDigit || ['.', '+', '-'].contains c || "infinitynane".toList.contains c.toLower

/-- A text is its sign and the rest. -/
theorem splitSign_eq (text : List Char) :
    text = (splitSign text).2 ∨ ∃ c ∈ ['+', '-'], text = c :: (splitSign text).2 := by
  fun_cases splitSign text with
  | case1 rest => exact .inr ⟨'-', by simp, rfl⟩
  | case2 rest => exact .inr ⟨'+', by simp, rfl⟩
  | case3 text => exact .inl rfl

theorem forall_isCharacter_of_splitSign {text : List Char}
    (h : ∀ c ∈ (splitSign text).2, isCharacter c = true) : ∀ c ∈ text, isCharacter c = true := by
  intro c hc
  rcases splitSign_eq text with heq | ⟨d, hd, heq⟩
  · exact h c (heq ▸ hc)
  · rw [heq] at hc
    rcases List.mem_cons.1 hc with rfl | hc
    · rw [List.mem_cons, List.mem_singleton] at hd
      rcases hd with rfl | rfl <;> decide
    · exact h c hc

theorem isCharacter_of_isDigit {c : Char} (h : c.isDigit = true) : isCharacter c = true := by
  simp [isCharacter, h]

/-- An exponent is a mark, an optional sign and digits. -/
theorem digits_of_readExponent {c : Char} {rest : List Char} {e : Int}
    (h : readExponent (c :: rest) = some e) :
    (c = 'e' ∨ c = 'E') ∧ ∀ d ∈ (splitSign rest).2, d.isDigit = true := by
  rw [readExponent] at h
  split at h
  · next hc =>
    rw [Bool.or_eq_true, beq_iff_eq, beq_iff_eq] at hc
    refine ⟨hc, ?_⟩
    generalize splitSign rest = cut at h ⊢
    obtain ⟨negative, digits⟩ := cut
    by_cases hall : digits.all Char.isDigit = true
    · exact List.all_eq_true.1 hall
    · simp [hall] at h
  · cases h

theorem isCharacter_of_readExponent {text : List Char} {e : Int} (h : readExponent text = some e) :
    ∀ c ∈ text, isCharacter c = true := by
  cases text with
  | nil => simp
  | cons c rest =>
    obtain ⟨hmark, hdigits⟩ := digits_of_readExponent h
    have hrest := forall_isCharacter_of_splitSign fun d hd => isCharacter_of_isDigit (hdigits d hd)
    have hmark : isCharacter c = true := by
      rcases hmark with rfl | rfl <;> decide
    simpa [hmark] using hrest

theorem isCharacter_of_readDecimal {text : List Char} {m : Magnitude}
    (h : readDecimal text = some m) : ∀ c ∈ text, isCharacter c = true := by
  have hdigits : ∀ u : List Char, ∀ c ∈ u.takeWhile Char.isDigit, isCharacter c = true :=
    fun u c hc => isCharacter_of_isDigit (List.all_eq_true.1 List.all_takeWhile c hc)
  rw [← List.takeWhile_append_dropWhile (p := Char.isDigit) (l := text)]
  rw [readDecimal] at h
  generalize text.dropWhile Char.isDigit = u at h
  have hrest : ∀ c ∈ (splitFraction u).2, isCharacter c = true := by
    generalize splitFraction u = cut at h ⊢
    obtain ⟨fraction, rest⟩ := cut
    dsimp only at h
    split at h
    · cases h
    · obtain ⟨e, he, -⟩ := Option.map_eq_some_iff.1 h
      exact isCharacter_of_readExponent he
  intro c hc
  rcases List.mem_append.1 hc with hc | hc
  · exact hdigits text c hc
  · revert hc
    fun_cases splitFraction u with
    | case1 rest =>
      intro hc
      rw [← List.takeWhile_append_dropWhile (p := Char.isDigit) (l := rest)] at hc
      rcases List.mem_cons.1 hc with rfl | hc
      · decide
      · rcases List.mem_append.1 hc with hc | hc
        · exact hdigits rest c hc
        · exact hrest c hc
    | case2 u hu =>
      intro hc
      rw [splitFraction] at hrest
      · exact hrest c hc
      · exact hu

theorem isCharacter_of_readMagnitude {text : List Char} {m : Magnitude}
    (h : readMagnitude text = some m) : ∀ c ∈ text, isCharacter c = true := by
  have hword : ∀ word : List Char, (∀ c ∈ word, "infinitynane".toList.contains c = true) →
      text.map Char.toLower = word → ∀ c ∈ text, isCharacter c = true := by
    intro word hletters heq c hc
    have := hletters c.toLower (heq ▸ List.mem_map_of_mem hc)
    simp only [isCharacter, this, Bool.or_true]
  rw [readMagnitude] at h
  split at h
  · next heq =>
    rw [Bool.or_eq_true, decide_eq_true_eq, decide_eq_true_eq] at heq
    rcases heq with heq | heq
    · exact hword _ (List.all_eq_true.1 (by decide)) heq
    · exact hword _ (List.all_eq_true.1 (by decide)) heq
  · split at h
    · next heq => exact hword _ (List.all_eq_true.1 (by decide)) heq
    · exact isCharacter_of_readDecimal h

/-- Literals hold only their characters. -/
theorem isCharacter_of_mem {text : List Char} {l : Literal} (h : read text = .ok l) :
    ∀ c ∈ text, isCharacter c = true := by
  rw [read] at h
  split at h
  · cases h
  · apply forall_isCharacter_of_splitSign
    generalize splitSign text = cut at h ⊢
    obtain ⟨negative, unsigned⟩ := cut
    dsimp only at h
    split at h
    · next m hm => exact isCharacter_of_readMagnitude hm
    · cases h

/-! ## The point of a literal -/

theorem not_mem_of_readExponent {text : List Char} {e : Int} (h : readExponent text = some e) :
    '.' ∉ text := by
  cases text with
  | nil => exact List.not_mem_nil
  | cons c rest =>
    obtain ⟨hmark, hdigits⟩ := digits_of_readExponent h
    have hrest : '.' ∉ (splitSign rest).2 := fun hmem => absurd (hdigits '.' hmem) (by decide)
    rw [List.mem_cons, not_or]
    constructor
    · rintro rfl
      exact absurd hmark (by decide)
    · rcases splitSign_eq rest with heq | ⟨d, hd, heq⟩
      · rwa [heq]
      · rw [heq, List.mem_cons, not_or]
        refine ⟨?_, hrest⟩
        rintro rfl
        exact absurd hd (by decide)

theorem mem_dropWhile_isDigit {c : Char} {text : List Char} (hc : c.isDigit = false)
    (h : c ∈ text) : c ∈ text.dropWhile Char.isDigit := by
  rw [← List.takeWhile_append_dropWhile (p := Char.isDigit) (l := text), List.mem_append] at h
  refine h.resolve_left fun hmem => ?_
  rw [List.all_eq_true.1 List.all_takeWhile c hmem] at hc
  cases hc

/-- In a decimal there are only digits ahead of a point, and only digits and an exponent behind
it. -/
theorem digits_of_readDecimal {p q : List Char} {m : Magnitude}
    (h : readDecimal (p ++ '.' :: q) = some m) :
    (∀ c ∈ p, c.isDigit = true) ∧ ∃ e, readExponent (q.dropWhile Char.isDigit) = some e := by
  rw [readDecimal] at h
  by_cases hp : p.dropWhile Char.isDigit = []
  · have hall := List.dropWhile_eq_nil_iff.1 hp
    have hdrop : (p ++ '.' :: q).dropWhile Char.isDigit = '.' :: q := by
      rw [List.dropWhile_append_of_pos hall]
      rfl
    rw [hdrop, splitFraction] at h
    dsimp only at h
    split at h
    · cases h
    · obtain ⟨e, he, -⟩ := Option.map_eq_some_iff.1 h
      exact ⟨hall, e, he⟩
  · obtain ⟨c, u, hu⟩ := List.exists_cons_of_ne_nil hp
    have hdrop : (p ++ '.' :: q).dropWhile Char.isDigit = c :: (u ++ '.' :: q) := by
      rw [List.dropWhile_append, if_neg (by simpa using hp), hu, List.cons_append]
    have hmem : '.' ∈ (splitFraction (c :: (u ++ '.' :: q))).2 := by
      by_cases hc : c = '.'
      · subst hc
        exact mem_dropWhile_isDigit (by decide) (by simp)
      · simp [splitFraction, hc]
    rw [hdrop] at h
    generalize splitFraction (c :: (u ++ '.' :: q)) = cut at h hmem
    obtain ⟨fraction, rest⟩ := cut
    dsimp only at h
    split at h
    · cases h
    · obtain ⟨e, he, -⟩ := Option.map_eq_some_iff.1 h
      exact absurd hmem (not_mem_of_readExponent he)

/-- In a literal there are only a sign and digits ahead of a point, and only digits and an exponent
behind it. -/
theorem digits_of_read {p q : List Char} {l : Literal} (h : read (p ++ '.' :: q) = .ok l) :
    (∃ digits, (p = digits ∨ ∃ c ∈ ['+', '-'], p = c :: digits) ∧
      ∀ d ∈ digits, d.isDigit = true) ∧
    ∃ e, readExponent (q.dropWhile Char.isDigit) = some e := by
  have hread : ∃ m, readMagnitude (splitSign (p ++ '.' :: q)).2 = some m := by
    rw [read, if_neg (by simp)] at h
    generalize splitSign (p ++ '.' :: q) = cut at h ⊢
    obtain ⟨negative, unsigned⟩ := cut
    dsimp only at h ⊢
    split at h
    · next m hm => exact ⟨m, hm⟩
    · cases h
  obtain ⟨m, hm⟩ := hread
  have hunsigned : ∀ {p}, readMagnitude (p ++ '.' :: q) = some m →
      (∀ c ∈ p, c.isDigit = true) ∧ ∃ e, readExponent (q.dropWhile Char.isDigit) = some e := by
    intro p hm
    have hword : ∀ word : List Char, '.' ∉ word → (p ++ '.' :: q).map Char.toLower ≠ word := by
      rintro word hword rfl
      exact hword (List.mem_map.2 ⟨'.', by simp, rfl⟩)
    rw [readMagnitude, if_neg, if_neg] at hm
    · exact digits_of_readDecimal hm
    · exact hword _ (by decide)
    · rw [Bool.or_eq_true, decide_eq_true_eq, decide_eq_true_eq, not_or]
      exact ⟨hword _ (by decide), hword _ (by decide)⟩
  rcases splitSign_eq (p ++ '.' :: q) with heq | ⟨c, hc, heq⟩
  · rw [← heq] at hm
    obtain ⟨hp, he⟩ := hunsigned hm
    exact ⟨⟨p, .inl rfl, hp⟩, he⟩
  · cases p with
    | nil =>
      obtain rfl : '.' = c := (List.cons.inj heq).1
      exact absurd hc (by decide)
    | cons d p =>
      obtain ⟨rfl, hrest⟩ := List.cons.inj heq
      rw [← hrest] at hm
      obtain ⟨hp, he⟩ := hunsigned hm
      exact ⟨⟨p, .inr ⟨d, hc, rfl⟩, hp⟩, he⟩

/-! ## The start of a literal -/

/-- No decimal starts with a letter or a separator. -/
theorem readDecimal_eq_none {c : Char} (hdigit : c.isDigit = false) (hpoint : c ≠ '.')
    (rest : List Char) : readDecimal (c :: rest) = none := by
  have hwhole : (c :: rest).takeWhile Char.isDigit = [] := by simp [hdigit]
  have hbehind : (c :: rest).dropWhile Char.isDigit = c :: rest := by simp [hdigit]
  have hfraction : splitFraction (c :: rest) = ([], c :: rest) := by simp [splitFraction, hpoint]
  rw [readDecimal, hwhole, hbehind, hfraction]
  rfl

/-- No literal starts with the letter of the parameter. -/
theorem read_t (rest : List Char) : read ('t' :: rest) = .error .malformed := by
  have hmagnitude : readMagnitude ('t' :: rest) = none := by
    rw [readMagnitude, readDecimal_eq_none (by decide) (by decide)]
    simp
  have hsign : splitSign ('t' :: rest) = (false, 't' :: rest) := rfl
  rw [read, List.isEmpty_cons, if_neg Bool.false_ne_true, hsign]
  dsimp only
  rw [hmagnitude]

end PlotSheet.Literal
