import PlotSheet.Proofs.Equation.Range

/-!
# Pi in bounds

A pi in a bound is spelt out before the bound is read. What stands ahead of it is kept apart from
its digits, either as a sign or as another factor. What stands right behind it is not: digits and
an exponent there continue the digits of π, so that the factor is a literal that nobody wrote.

## Main definitions

* `WholeFactor`: a literal, or a pi with an optional sign
* `LooseFactor`: a whole factor, or a pi whose digits are continued
* `SpellsBoundOf`: a factor, or the product of two, with or without a star between them
* `StarCut`: a text whose spelling has a star between two given parts
* `IsPiContinued`: a digit or an exponent mark stands right behind a pi

## Main results

* `spellPiAfter_append`, `starCut_of_spellPiAfter_eq`: spelling out in parts, and back
* `looseFactor_of_read`, `exists_read_of_looseFactor`: the texts that are a literal when spelt out
* `readBound_pi_iff`: the bounds that are read, with their values
-/

namespace PlotSheet.Equation

open Text PlotSheet.Span

/-- The ways to write a pi. -/
def piWords : List (List Char) := [['p', 'i'], ['π']]

/-- The signs of a factor. -/
def signs : List (List Char) := [[], ['+'], ['-']]

theorem mem_piWords_iff {word : List Char} : word ∈ piWords ↔ word = ['p', 'i'] ∨ word = ['π'] := by
  simp [piWords]

theorem mem_signs_iff {sign : List Char} :
    sign ∈ signs ↔ sign = [] ∨ sign = ['+'] ∨ sign = ['-'] := by
  simp [signs]

/-- The floating-point number nearest to π. -/
def pi : Float := Float.ofBits 0x400921FB54442D18

/-- The text is a literal, or a pi with an optional sign. -/
inductive WholeFactor : List Char → Float → Prop
  | literal {text : List Char} {l : Literal} :
    Literal.read text = .ok l → WholeFactor text l.toFloat
  | pi {sign word : List Char} :
    sign ∈ signs → word ∈ piWords → WholeFactor (sign ++ word) (if sign = ['-'] then -pi else pi)

/-- The text is a whole factor, or the digits of a pi in it continue in what stands behind. -/
inductive LooseFactor : List Char → Float → Prop
  | whole {text : List Char} {v : Float} : WholeFactor text v → LooseFactor text v
  | fused {sign word tail : List Char} {l : Literal} :
    sign ∈ signs → word ∈ piWords → tail ≠ [] →
    Literal.read (sign ++ (piDigits ++ tail)) = .ok l →
    LooseFactor (sign ++ (word ++ tail)) l.toFloat

/-- Whether a text ends in a digit or a point, given whether the text ahead of it does. -/
def endsInNumber (after : Bool) (text : List Char) : Bool :=
  match text.getLast? with
  | none => after
  | some c => c.isDigit || c == '.'

/-- The text is a factor or the product of two, where a pi multiplies the number right ahead of
it. -/
inductive SpellsBoundOf (Factor : List Char → Float → Prop) : List Char → Float → Prop
  | factor {text : List Char} {v : Float} : Factor text v → SpellsBoundOf Factor text v
  | product {left right : List Char} {v w : Float} :
    Factor left v → Factor right w → SpellsBoundOf Factor (left ++ '*' :: right) (v * w)
  | juxtaposed {left word tail : List Char} {v w : Float} :
    Factor left v → endsInNumber false (spellPi left) = true → word ∈ piWords →
    Factor (word ++ tail) w → SpellsBoundOf Factor (left ++ (word ++ tail)) (v * w)

/-- A digit or an exponent mark stands right behind a pi. -/
def IsPiContinued (text : List Char) : Prop :=
  ∃ ahead, ∃ word ∈ piWords, ∃ c behind,
    text = ahead ++ (word ++ c :: behind) ∧ (c.isDigit = true ∨ c = 'e' ∨ c = 'E')

/-! ## Spelling out -/

@[simp] theorem endsInNumber_nil (b : Bool) : endsInNumber b [] = b := rfl

@[simp] theorem endsInNumber_append (b : Bool) (x y : List Char) :
    endsInNumber b (x ++ y) = endsInNumber (endsInNumber b x) y := by
  unfold endsInNumber
  rw [List.getLast?_append]
  cases y.getLast? with
  | none => rfl
  | some c => rfl

theorem endsInNumber_cons (b : Bool) (c : Char) (x : List Char) :
    endsInNumber b (c :: x) = endsInNumber (c.isDigit || c == '.') x :=
  endsInNumber_append b [c] x

@[simp] theorem endsInNumber_piFactor (b : Bool) (afterDigit : Bool) :
    endsInNumber b (piFactor afterDigit) = true := by
  cases afterDigit <;> rfl

theorem spellPiAfter_word {word : List Char} (h : word ∈ piWords) (b : Bool) (rest : List Char) :
    spellPiAfter b (word ++ rest) = piFactor b ++ spellPiAfter true rest := by
  rcases mem_piWords_iff.1 h with rfl | rfl <;> rfl

theorem head?_word_append {word : List Char} (h : word ∈ piWords) (rest : List Char) :
    (word ++ rest).head? ≠ some 'i' := by
  rcases mem_piWords_iff.1 h with rfl | rfl <;> simp

theorem spellPiAfter_cons {c : Char} {rest : List Char} (hpi : c ≠ 'π')
    (hp : ¬ (c = 'p' ∧ rest.head? = some 'i')) (b : Bool) :
    spellPiAfter b (c :: rest) = c :: spellPiAfter (c.isDigit || c == '.') rest := by
  rw [spellPiAfter]
  · rintro rest rfl rfl
    exact hp ⟨rfl, rfl⟩
  · exact hpi

theorem spellPiAfter_eq_self {text : List Char} (hp : 'p' ∉ text) (hpi : 'π' ∉ text) :
    ∀ afterDigit, spellPiAfter afterDigit text = text := by
  induction text with
  | nil => exact fun _ => rfl
  | cons c text ih =>
    obtain ⟨hcp, hp⟩ := List.ne_and_not_mem_of_not_mem_cons hp
    obtain ⟨hcpi, hpi⟩ := List.ne_and_not_mem_of_not_mem_cons hpi
    intro afterDigit
    rw [spellPiAfter_cons (Ne.symm hcpi) fun h => hcp h.1.symm, ih hp hpi]

/-- A text is spelt out in parts, unless the cut goes through a pi. -/
theorem spellPiAfter_append (b : Bool) (x : List Char) {y : List Char} (hy : y.head? ≠ some 'i') :
    spellPiAfter b (x ++ y) =
      spellPiAfter b x ++ spellPiAfter (endsInNumber b (spellPiAfter b x)) y := by
  fun_induction spellPiAfter b x with
  | case1 b => rfl
  | case2 b rest ih => simp [spellPiAfter, ih]
  | case3 b rest ih => simp [spellPiAfter, ih]
  | case4 b c rest hp hpi ih =>
    have hcut : ¬ (c = 'p' ∧ (rest ++ y).head? = some 'i') := by
      rintro ⟨rfl, hhead⟩
      cases rest with
      | nil => exact hy hhead
      | cons d rest =>
        obtain rfl : d = 'i' := by simpa using hhead
        exact hp rest rfl rfl
    rw [List.cons_append, spellPiAfter_cons hpi hcut, ih, endsInNumber_cons, List.cons_append]

/-- A text is spelt out to itself, or there is a first pi in it. -/
theorem exists_of_spellPiAfter_ne (b : Bool) (text : List Char) :
    spellPiAfter b text = text ∨
      ∃ ahead, ∃ word ∈ piWords, ∃ behind, text = ahead ++ (word ++ behind) ∧
        spellPiAfter b text =
          ahead ++ (piFactor (endsInNumber b ahead) ++ spellPiAfter true behind) := by
  fun_induction spellPiAfter b text with
  | case1 b => exact .inl rfl
  | case2 b rest ih => exact .inr ⟨[], ['p', 'i'], by simp [piWords], rest, rfl, rfl⟩
  | case3 b rest ih => exact .inr ⟨[], ['π'], by simp [piWords], rest, rfl, rfl⟩
  | case4 b c rest hp hpi ih =>
    rcases ih with hself | ⟨ahead, word, hword, behind, rfl, hspell⟩
    · exact .inl (by rw [hself])
    · refine .inr ⟨c :: ahead, word, hword, behind, rfl, ?_⟩
      rw [hspell, endsInNumber_cons, List.cons_append]

/-! ## Stars of a spelt-out text -/

/-- A star of the spelt-out text is written, or it stands ahead of a pi behind a number. -/
inductive StarCut (b : Bool) : List Char → List Char → List Char → Prop
  | star (ahead behind : List Char) :
    StarCut b (ahead ++ '*' :: behind) (spellPiAfter b ahead) (spellPi behind)
  | word {ahead word : List Char} (behind : List Char) :
    word ∈ piWords → endsInNumber b (spellPiAfter b ahead) = true →
    StarCut b (ahead ++ (word ++ behind)) (spellPiAfter b ahead) (spellPi (word ++ behind))

theorem StarCut.prepend {b b' : Bool} {x out rest left right : List Char}
    (h : StarCut b' rest left right) (hout : endsInNumber b out = b')
    (hspell : ∀ ahead, ahead <+: rest →
      spellPiAfter b (x ++ ahead) = out ++ spellPiAfter b' ahead) :
    StarCut b (x ++ rest) (out ++ left) right := by
  cases h with
  | star ahead behind =>
    rw [← hspell ahead (List.prefix_append ..), ← List.append_assoc]
    exact .star (x ++ ahead) behind
  | word behind hword hend =>
    rename_i ahead word
    have hspell := hspell ahead (List.prefix_append ..)
    rw [← hspell, ← List.append_assoc]
    refine .word behind hword ?_
    rwa [hspell, endsInNumber_append, hout]

/-- The star is that of the factor, or it stands behind it. -/
theorem piFactor_append_eq {b : Bool} {rest left right : List Char} (hleft : '*' ∉ left)
    (h : piFactor b ++ rest = left ++ '*' :: right) :
    (b = true ∧ left = [] ∧ piFactor false ++ rest = right) ∨
      ∃ left', left = piFactor b ++ left' ∧ rest = left' ++ '*' :: right := by
  rcases List.append_eq_append_iff.1 h with ⟨left', rfl, hrest⟩ | ⟨digits, hfactor, hright⟩
  · exact .inr ⟨left', rfl, hrest⟩
  · cases digits with
    | nil => exact .inr ⟨[], by simpa using hfactor.symm, by simpa using hright.symm⟩
    | cons d digits =>
      obtain ⟨rfl, rfl⟩ := List.cons.inj hright
      cases b with
      | false =>
        have hmem : '*' ∈ piFactor false := by simp [hfactor]
        exact absurd hmem (by decide)
      | true =>
        cases left with
        | nil =>
          obtain rfl : piDigits = digits := (List.cons.inj hfactor).2
          exact .inl ⟨rfl, rfl, rfl⟩
        | cons c left =>
          obtain rfl : '*' = c := (List.cons.inj hfactor).1
          exact absurd List.mem_cons_self hleft

theorem starCut_word {b : Bool} {word rest left right : List Char} (hword : word ∈ piWords)
    (hleft : '*' ∉ left) (h : piFactor b ++ spellPiAfter true rest = left ++ '*' :: right)
    (ih : ∀ left, '*' ∉ left → spellPiAfter true rest = left ++ '*' :: right →
      StarCut true rest left right) : StarCut b (word ++ rest) left right := by
  rcases piFactor_append_eq hleft h with ⟨rfl, rfl, rfl⟩ | ⟨left', rfl, hrest⟩
  · rw [← spellPiAfter_word hword false rest]
    exact show StarCut true ([] ++ (word ++ rest)) [] (spellPi (word ++ rest)) from
      .word rest hword rfl
  · rw [List.mem_append, not_or] at hleft
    refine (ih left' hleft.2 hrest).prepend (endsInNumber_piFactor b b) fun ahead _ => ?_
    exact spellPiAfter_word hword b ahead

/-- A spelt-out text is cut at a star as the text is cut itself. -/
theorem starCut_of_spellPiAfter_eq (b : Bool) (text : List Char) {right : List Char} :
    ∀ left, '*' ∉ left → spellPiAfter b text = left ++ '*' :: right →
      StarCut b text left right := by
  fun_induction spellPiAfter b text with
  | case1 b =>
    intro left _ h
    simp at h
  | case2 b rest ih =>
    intro left hleft h
    exact starCut_word (show ['p', 'i'] ∈ piWords by simp [piWords]) hleft h ih
  | case3 b rest ih =>
    intro left hleft h
    exact starCut_word (show ['π'] ∈ piWords by simp [piWords]) hleft h ih
  | case4 b c rest hp hpi ih =>
    intro left hleft h
    cases left with
    | nil =>
      obtain ⟨rfl, rfl⟩ := List.cons.inj h
      exact .star [] rest
    | cons d left =>
      obtain ⟨rfl, hrest⟩ := List.cons.inj h
      have hcut := ih left (List.not_mem_of_not_mem_cons hleft) hrest
      show StarCut b ([c] ++ rest) ([c] ++ left) right
      refine hcut.prepend rfl fun ahead hahead => spellPiAfter_cons hpi ?_ b
      rintro ⟨rfl, hhead⟩
      obtain ⟨behind, rfl⟩ := hahead
      obtain ⟨ahead, rfl⟩ := List.head?_eq_some_iff.1 hhead
      exact hp (ahead ++ behind) rfl rfl

/-! ## Factors -/

/-- There is no pi among the characters of literals. -/
theorem spellPiAfter_eq_self_of_forall {text : List Char}
    (h : ∀ c ∈ text, Literal.isCharacter c = true) (b : Bool) : spellPiAfter b text = text := by
  refine spellPiAfter_eq_self (fun hmem => ?_) (fun hmem => ?_) b
  · exact absurd (h 'p' hmem) (by decide)
  · exact absurd (h 'π' hmem) (by decide)

theorem spellPi_sign_word {sign word : List Char} (hsign : sign ∈ signs) (hword : word ∈ piWords)
    (tail : List Char) :
    spellPi (sign ++ (word ++ tail)) = sign ++ (piDigits ++ spellPiAfter true tail) := by
  rcases mem_signs_iff.1 hsign with rfl | rfl | rfl <;>
    rcases mem_piWords_iff.1 hword with rfl | rfl <;> rfl

/-- Around the digits of π in a literal there are a sign and digits ahead of the point, and digits
and an exponent behind. -/
theorem digits_of_read_pi {ahead behind : List Char} {l : Literal}
    (h : Literal.read (ahead ++ (piDigits ++ behind)) = .ok l) :
    (∃ digits, (ahead ++ ['3'] = digits ∨ ∃ c ∈ ['+', '-'], ahead ++ ['3'] = c :: digits) ∧
      ∀ d ∈ digits, d.isDigit = true) ∧
    ∃ e, Literal.readExponent (behind.dropWhile Char.isDigit) = some e := by
  have hdigits : piDigits = '3' :: '.' :: "141592653589793".toList := by decide
  have hfraction : ∀ d ∈ "141592653589793".toList, d.isDigit = true :=
    List.all_eq_true.1 (by decide)
  have hcut : ahead ++ (piDigits ++ behind) =
      (ahead ++ ['3']) ++ '.' :: ("141592653589793".toList ++ behind) := by
    rw [hdigits]
    simp
  rw [hcut] at h
  have hread := Literal.digits_of_read h
  rwa [List.dropWhile_append_of_pos hfraction] at hread

/-- No digits end a text that does not end in a number. -/
theorem eq_nil_of_forall_isDigit {b : Bool} {digits : List Char}
    (hdigits : ∀ d ∈ digits, d.isDigit = true) (hend : endsInNumber b digits = false) :
    digits = [] := by
  rcases List.eq_nil_or_concat digits with rfl | ⟨front, d, rfl⟩
  · rfl
  · have hd : d.isDigit = true := hdigits d (by simp)
    simp [endsInNumber, hd] at hend

/-- The digits of π in a literal have no more than a sign ahead of them, unless there is a number
right ahead of them. -/
theorem mem_signs_of_read {ahead behind : List Char} {l : Literal}
    (h : Literal.read (ahead ++ (piDigits ++ behind)) = .ok l)
    (hend : endsInNumber false ahead = false) : ahead ∈ signs := by
  obtain ⟨⟨digits, hahead, hdigits⟩, -⟩ := digits_of_read_pi h
  rcases hahead with rfl | ⟨c, hc, hahead⟩
  · obtain rfl := eq_nil_of_forall_isDigit (fun d hd => hdigits d (by simp [hd])) hend
    simp [signs]
  · cases ahead with
    | nil => simp [signs]
    | cons d ahead =>
      obtain ⟨rfl, rfl⟩ := List.cons.inj hahead
      rw [endsInNumber_cons] at hend
      obtain rfl := eq_nil_of_forall_isDigit (fun e he => hdigits e (by simp [he])) hend
      simpa [signs] using hc

theorem read_sign_pi {sign : List Char} (hsign : sign ∈ signs) :
    Literal.read (sign ++ piDigits) =
      .ok ⟨sign == ['-'], .decimal 3141592653589793 (-15)⟩ := by
  rcases mem_signs_iff.1 hsign with rfl | rfl | rfl <;> decide

/-- The digits are read as the number nearest to π. -/
theorem toFloat_sign_pi (sign : List Char) :
    Literal.toFloat ⟨sign == ['-'], .decimal 3141592653589793 (-15)⟩ =
      if sign = ['-'] then -pi else pi := by
  have hvalue : Literal.decimalToFloat 3141592653589793 (-15) = pi := by decide
  simp [Literal.toFloat, hvalue]

theorem mem_piFactor (b : Bool) : '.' ∈ piFactor b := by
  cases b <;> decide

/-- A second pi would give a literal a second point. -/
theorem spellPiAfter_eq_self_of_read_pi {ahead tail : List Char} {b : Bool} {l : Literal}
    (h : Literal.read (ahead ++ (piDigits ++ spellPiAfter b tail)) = .ok l) :
    spellPiAfter b tail = tail := by
  obtain ⟨-, e, he⟩ := digits_of_read_pi h
  refine (exists_of_spellPiAfter_ne b tail).resolve_right ?_
  rintro ⟨front, word, hword, behind, rfl, hspell⟩
  have hmem : '.' ∈ spellPiAfter b (front ++ (word ++ behind)) := by
    rw [hspell]
    exact List.mem_append_right _ (List.mem_append_left _ (mem_piFactor _))
  exact Literal.not_mem_of_readExponent he (Literal.mem_dropWhile_isDigit (by decide) hmem)

/-- A text that is a literal when it is spelt out is a loose factor. -/
theorem looseFactor_of_read {text : List Char} {l : Literal}
    (h : Literal.read (spellPi text) = .ok l) : LooseFactor text l.toFloat := by
  rcases exists_of_spellPiAfter_ne false text with hself | ⟨ahead, word, hword, tail, rfl, hspell⟩
  · rw [spellPi, hself] at h
    exact .whole (.literal h)
  · rw [spellPi, hspell] at h
    cases hend : endsInNumber false ahead with
    | true =>
      rw [hend] at h
      exact absurd (List.mem_append_right ahead List.mem_cons_self) (not_mem_of_read_eq_ok h)
    | false =>
      rw [hend] at h
      have hsign := mem_signs_of_read h hend
      rw [spellPiAfter_eq_self_of_read_pi h] at h
      by_cases hnil : tail = []
      · subst hnil
        rw [List.append_nil] at h ⊢
        obtain rfl := Except.ok.inj ((read_sign_pi hsign).symm.trans h)
        rw [toFloat_sign_pi]
        exact .whole (.pi hsign hword)
      · exact .fused hsign hword hnil h

/-- A loose factor is a literal when it is spelt out. -/
theorem exists_read_of_looseFactor {text : List Char} {v : Float} (h : LooseFactor text v) :
    ∃ l, Literal.read (spellPi text) = .ok l ∧ l.toFloat = v := by
  cases h with
  | whole h =>
    cases h with
    | literal h =>
      rename_i l
      have hself := spellPiAfter_eq_self_of_forall (Literal.isCharacter_of_mem h) false
      exact ⟨l, by rwa [spellPi, hself], rfl⟩
    | pi hsign hword =>
      rename_i sign word
      have hspell := spellPi_sign_word hsign hword []
      rw [List.append_nil] at hspell
      exact ⟨_, by rw [hspell]; exact read_sign_pi hsign, toFloat_sign_pi sign⟩
  | fused hsign hword hnil h =>
    rename_i sign word tail l
    have hcharacters : ∀ c ∈ tail, Literal.isCharacter c = true :=
      fun c hc => Literal.isCharacter_of_mem h c (by simp [hc])
    have htail := spellPiAfter_eq_self_of_forall hcharacters true
    exact ⟨l, by rwa [spellPi_sign_word hsign hword, htail], rfl⟩

/-! ## Bounds -/

theorem spellPi_product (left right : List Char) :
    spellPi (left ++ '*' :: right) = spellPi left ++ '*' :: spellPi right :=
  spellPiAfter_append false left (by simp)

theorem spellPi_juxtaposed {left word tail : List Char}
    (hend : endsInNumber false (spellPi left) = true)
    (hword : word ∈ piWords) :
    spellPi (left ++ (word ++ tail)) = spellPi left ++ '*' :: spellPi (word ++ tail) := by
  unfold spellPi at hend ⊢
  rw [spellPiAfter_append false left (head?_word_append hword tail), hend,
    spellPiAfter_word hword, spellPiAfter_word hword]
  rfl

/-- The bounds are the products of loose factors. -/
theorem spellsBound_iff {text : List Char} {v : Float} :
    SpellsBound text v ↔ SpellsBoundOf LooseFactor text v := by
  constructor
  · intro h
    unfold SpellsBound at h
    generalize hspell : spellPi text = spelt at h
    cases h with
    | literal h =>
      rw [← hspell] at h
      exact .factor (looseFactor_of_read h)
    | product hl hr =>
      have hcut := starCut_of_spellPiAfter_eq false text _ (not_mem_of_read_eq_ok hl) hspell
      cases hcut with
      | star ahead behind => exact .product (looseFactor_of_read hl) (looseFactor_of_read hr)
      | word behind hword hend =>
        exact .juxtaposed (looseFactor_of_read hl) hend hword (looseFactor_of_read hr)
  · intro h
    unfold SpellsBound
    cases h with
    | factor h =>
      obtain ⟨l, hl, rfl⟩ := exists_read_of_looseFactor h
      exact .literal hl
    | product hv hw =>
      obtain ⟨l, hl, rfl⟩ := exists_read_of_looseFactor hv
      obtain ⟨r, hr, rfl⟩ := exists_read_of_looseFactor hw
      rw [spellPi_product]
      exact .product hl hr
    | juxtaposed hv hend hword hw =>
      obtain ⟨l, hl, rfl⟩ := exists_read_of_looseFactor hv
      obtain ⟨r, hr, rfl⟩ := exists_read_of_looseFactor hw
      rw [spellPi_juxtaposed hend hword]
      exact .product hl hr

/-! ## Continued pis -/

theorem IsPiContinued.append {text : List Char} (h : IsPiContinued text) (ahead behind : List Char) :
    IsPiContinued (ahead ++ (text ++ behind)) := by
  obtain ⟨front, word, hword, c, back, rfl, hc⟩ := h
  exact ⟨ahead ++ front, word, hword, c, back ++ behind, by simp, hc⟩

/-- The digits of π are only continued by digits and exponents. -/
theorem LooseFactor.whole_or_isPiContinued {text : List Char} {v : Float} (h : LooseFactor text v) :
    WholeFactor text v ∨ IsPiContinued text := by
  cases h with
  | whole h => exact .inl h
  | fused hsign hword hnil h =>
    rename_i sign word tail l
    obtain ⟨c, behind, rfl⟩ := List.exists_cons_of_ne_nil hnil
    refine .inr ⟨sign, word, hword, c, behind, rfl, ?_⟩
    obtain ⟨-, e, he⟩ := digits_of_read_pi h
    by_cases hc : c.isDigit = true
    · exact .inl hc
    · rw [List.dropWhile_cons_of_neg hc] at he
      exact .inr (Literal.digits_of_readExponent he).1

theorem SpellsBoundOf.whole_or_isPiContinued {text : List Char} {v : Float}
    (h : SpellsBoundOf LooseFactor text v) :
    SpellsBoundOf WholeFactor text v ∨ IsPiContinued text := by
  cases h with
  | factor h => exact h.whole_or_isPiContinued.imp_left .factor
  | product hv hw =>
    rename_i left right v w
    rcases hv.whole_or_isPiContinued with hv | hv
    · rcases hw.whole_or_isPiContinued with hw | hw
      · exact .inl (.product hv hw)
      · exact .inr (by simpa using hw.append (left ++ ['*']) [])
    · exact .inr (hv.append [] ('*' :: right))
  | juxtaposed hv hend hword hw =>
    rename_i left word tail v w
    rcases hv.whole_or_isPiContinued with hv | hv
    · rcases hw.whole_or_isPiContinued with hw | hw
      · exact .inl (.juxtaposed hv hend hword hw)
      · exact .inr (by simpa using hw.append left [])
    · exact .inr (hv.append [] (word ++ tail))

theorem SpellsBoundOf.mono {F G : List Char → Float → Prop} (hle : ∀ text v, F text v → G text v)
    {text : List Char} {v : Float} (h : SpellsBoundOf F text v) : SpellsBoundOf G text v := by
  cases h with
  | factor h => exact .factor (hle _ _ h)
  | product hv hw => exact .product (hle _ _ hv) (hle _ _ hw)
  | juxtaposed hv hend hword hw => exact .juxtaposed (hle _ _ hv) hend hword (hle _ _ hw)

/-! ## Whole pis -/

theorem IsPiContinued.exists_mem {text : List Char} (h : IsPiContinued text) :
    ('p' ∈ text ∨ 'π' ∈ text) ∧ ∃ c ∈ text, c.isDigit = true ∨ c = 'e' ∨ c = 'E' := by
  obtain ⟨ahead, word, hword, c, behind, rfl, hc⟩ := h
  refine ⟨?_, c, by simp, hc⟩
  rcases mem_piWords_iff.1 hword with rfl | rfl <;> simp

/-- A pi is continued on one side of a cut, unless the cut goes through it or right behind it. -/
theorem IsPiContinued.of_append {left right : List Char} (h : IsPiContinued (left ++ right))
    (hi : right.head? ≠ some 'i')
    (hright : ∀ c ∈ right.head?, ¬ (c.isDigit = true ∨ c = 'e' ∨ c = 'E')) :
    IsPiContinued left ∨ IsPiContinued right := by
  obtain ⟨ahead, word, hword, c, behind, htext, hc⟩ := h
  rcases List.append_eq_append_iff.1 htext with ⟨front, -, rfl⟩ | ⟨back, rfl, hcut⟩
  · exact .inr ⟨front, word, hword, c, behind, rfl, hc⟩
  · rcases List.append_eq_append_iff.1 hcut with ⟨mid, rfl, hmid⟩ | ⟨mid, hmid, rfl⟩
    · cases mid with
      | nil =>
        obtain rfl : c :: behind = right := hmid
        exact absurd hc (hright c rfl)
      | cons d mid =>
        obtain rfl := (List.cons.inj hmid).1
        exact .inl ⟨ahead, word, hword, c, mid, rfl, hc⟩
    · cases back with
      | nil => exact .inr ⟨[], word, hword, c, behind, by rw [hmid]; rfl, hc⟩
      | cons d back =>
        rcases mem_piWords_iff.1 hword with rfl | rfl
        · cases back with
          | nil =>
            obtain ⟨-, rfl⟩ : d = 'p' ∧ mid = ['i'] := by simpa using hmid.symm
            exact absurd rfl hi
          | cons e back =>
            obtain ⟨-, -, -, rfl⟩ : 'p' = d ∧ 'i' = e ∧ back = [] ∧ mid = [] := by simpa using hmid
            exact absurd hc (hright c rfl)
        · obtain ⟨-, -, rfl⟩ : 'π' = d ∧ back = [] ∧ mid = [] := by simpa using hmid
          exact absurd hc (hright c rfl)

theorem IsPiContinued.of_cons_star {text : List Char} (h : IsPiContinued ('*' :: text)) :
    IsPiContinued text := by
  obtain ⟨ahead, word, hword, c, behind, htext, hc⟩ := h
  cases ahead with
  | nil =>
    rcases mem_piWords_iff.1 hword with rfl | rfl <;> simp at htext
  | cons d ahead => exact ⟨ahead, word, hword, c, behind, (List.cons.inj htext).2, hc⟩

theorem WholeFactor.not_isPiContinued {text : List Char} {v : Float} (h : WholeFactor text v) :
    ¬ IsPiContinued text := by
  intro hcontinued
  obtain ⟨hpi, c, hmem, hc⟩ := hcontinued.exists_mem
  cases h with
  | literal h =>
    rcases hpi with hpi | hpi
    · exact absurd (Literal.isCharacter_of_mem h 'p' hpi) (by decide)
    · exact absurd (Literal.isCharacter_of_mem h 'π' hpi) (by decide)
  | pi hsign hword =>
    rename_i sign word
    have hnone : (sign ++ word).any (fun d => d.isDigit = true ∨ d = 'e' ∨ d = 'E') = false := by
      rcases mem_signs_iff.1 hsign with rfl | rfl | rfl <;>
        rcases mem_piWords_iff.1 hword with rfl | rfl <;> decide
    exact List.any_eq_false.1 hnone c hmem (decide_eq_true hc)

/-- A product of whole factors has no pi that is continued. -/
theorem SpellsBoundOf.not_isPiContinued {text : List Char} {v : Float}
    (h : SpellsBoundOf WholeFactor text v) : ¬ IsPiContinued text := by
  intro hcontinued
  cases h with
  | factor h => exact h.not_isPiContinued hcontinued
  | product hv hw =>
    rcases hcontinued.of_append (by simp) (by simp) with hleft | hright
    · exact hv.not_isPiContinued hleft
    · exact hw.not_isPiContinued hright.of_cons_star
  | juxtaposed hv hend hword hw =>
    have hstart := mem_piWords_iff.1 hword
    rcases hcontinued.of_append (head?_word_append hword _)
      (by rcases hstart with rfl | rfl <;> simp) with hleft | hright
    · exact hv.not_isPiContinued hleft
    · exact hw.not_isPiContinued hright

/-! ## Reading bounds -/

/-- **Pi in bounds.** A bound is read as a value exactly if it is that product of loose factors. The
factors are literals and signed pis exactly if no digit and no exponent mark stands right behind a
pi. -/
theorem readBound_pi_iff (before text after : List Char) (v : Float) :
    (readBound (between before text after) = .ok v ↔ SpellsBoundOf LooseFactor text v) ∧
    (SpellsBoundOf WholeFactor text v ↔
      readBound (between before text after) = .ok v ∧ ¬ IsPiContinued text) := by
  rw [readBound_eq_ok_iff, spellsBound_iff]
  refine ⟨Iff.rfl, ?_⟩
  constructor
  · intro h
    exact ⟨h.mono fun _ _ => .whole, h.not_isPiContinued⟩
  · rintro ⟨h, hcontinued⟩
    exact h.whole_or_isPiContinued.resolve_right hcontinued

/-- The digit behind a pi continues its digits. -/
theorem readBound_pi_five :
    readBound (whole "pi5".toList) =
      .ok (Literal.toFloat ⟨false, .decimal 31415926535897935 (-16)⟩) := by
  have hspell : spellPi "pi5".toList = "3.1415926535897935".toList := by decide
  have hread : Literal.read "3.1415926535897935".toList =
      .ok ⟨false, .decimal 31415926535897935 (-16)⟩ := by decide
  have hbound : SpellsBound "pi5".toList
      (Literal.toFloat ⟨false, .decimal 31415926535897935 (-16)⟩) := by
    unfold SpellsBound
    rw [hspell]
    exact .literal hread
  exact readBound_of_spellsBound [] [] hbound

/-- Not every pi of a bound is a factor of its own. -/
theorem not_forall_spellsBoundOf_wholeFactor :
    ¬ ∀ (text : List Char) (v : Float), (∃ word ∈ piWords, word <:+: text) →
      readBound (whole text) = .ok v → SpellsBoundOf WholeFactor text v := by
  intro h
  have hword : ['p', 'i'] ∈ piWords := by simp [piWords]
  have hwhole := h "pi5".toList _ ⟨['p', 'i'], hword, by decide⟩ readBound_pi_five
  exact hwhole.not_isPiContinued ⟨[], ['p', 'i'], hword, '5', [], rfl, .inl rfl⟩

end PlotSheet.Equation
