import PlotSheet.Proofs.Equation.Blame
import PlotSheet.Proofs.Equation.Pi

/-!
# No promise is broken while an equation is read

Reading an equation cuts it into ever smaller parts and works with their lengths, and every part is
checked as it is cut out. Reading starts from the whole text, and each step goes from parts of a
source to parts of it; so no check fails, whatever the text is and however many coefficients memory
can be set aside for. Spelling out pi goes along the text by bytes, and always stands between two
characters.

## Main definitions

* `spellPiByBytes`: a text with its pis spelt out, cut by bytes
* `Yields`: a result without a fault, whose value has a property
* `IsSums`: the invariant of the sums of coefficients

## Main results

* `spellPiByBytes_eq_ok`: spelling out pi cuts at character boundaries
* `readTerms_yields`, `dense_yields`: exponents stay below the greatest machine word, and every
  write is inside the list of coefficients
* `parse_keeps_promises`: no promise of the library is broken while an equation is read
-/

namespace PlotSheet.Equation

open PlotSheet.Span Text

/-! ## Spelling out pi by bytes -/

theorem length_le_of_splitBytes? {n : Nat} (hn : 0 < n) {c : Char} {rest ahead behind : List Char}
    (h : splitBytes? n (c :: rest) = some (ahead, behind)) : behind.length ≤ rest.length := by
  obtain ⟨htext, hlength⟩ := splitBytes?_eq_some_iff.1 h
  cases ahead with
  | nil =>
    rw [byteLength_nil] at hlength
    omega
  | cons d ahead =>
    obtain rfl := (List.cons.inj htext).2
    simp

/-- Whether a text starts with a pi. -/
def startsWithPi (c : Char) (rest : List Char) : Bool :=
  (c == 'p' && rest.head? == some 'i') || c == 'π'

/-- The bytes of what a text starts with: the word for pi, or a character. -/
def headBytes (c : Char) (rest : List Char) : Nat :=
  if c = 'p' ∧ rest.head? = some 'i' then byteLength ['p', 'i'] else c.utf8Size

theorem headBytes_pos (c : Char) (rest : List Char) : 0 < headBytes c rest := by
  unfold headBytes
  split
  · decide
  · exact c.utf8Size_pos

/-- The text behind what it starts with. -/
def behindHead (c : Char) (rest : List Char) :
    Except Fault { behind : List Char // behind.length ≤ rest.length } :=
  match h : splitBytes? (headBytes c rest) (c :: rest) with
  | some (_, behind) => .ok ⟨behind, length_le_of_splitBytes? (headBytes_pos c rest) h⟩
  | none => .error .slice

/-- The text with its pis spelt out, given whether a digit or a point precedes it. -/
def spellPiByBytes (afterDigit : Bool) : List Char → Except Fault (List Char)
  | [] => return []
  | c :: rest => do
    let ⟨behind, _⟩ ← behindHead c rest
    if startsWithPi c rest then return piFactor afterDigit ++ (← spellPiByBytes true behind)
    else return c :: (← spellPiByBytes (c.isDigit || c == '.') behind)
termination_by text => text.length

theorem behindHead_eq {c : Char} {rest ahead behind : List Char}
    (h : splitBytes? (headBytes c rest) (c :: rest) = some (ahead, behind)) :
    behindHead c rest = .ok ⟨behind, length_le_of_splitBytes? (headBytes_pos c rest) h⟩ := by
  unfold behindHead
  split
  · next ahead' behind' h' =>
    obtain ⟨rfl, rfl⟩ := Prod.mk.inj (Option.some.inj (h'.symm.trans h))
    rfl
  · next h' =>
    rw [h] at h'
    cases h'

/-- A step of spelling out, where what the text starts with ends at a character boundary. -/
theorem spellPiByBytes_cons {c : Char} {rest ahead behind : List Char}
    (h : splitBytes? (headBytes c rest) (c :: rest) = some (ahead, behind)) (afterDigit : Bool) :
    spellPiByBytes afterDigit (c :: rest) =
      if startsWithPi c rest then (piFactor afterDigit ++ ·) <$> spellPiByBytes true behind
      else (c :: ·) <$> spellPiByBytes (c.isDigit || c == '.') behind := by
  rw [spellPiByBytes, behindHead_eq h]
  rfl

theorem spellPiByBytes_eq_ok (text : List Char) (afterDigit : Bool) :
    spellPiByBytes afterDigit text = .ok (spellPiAfter afterDigit text) := by
  fun_induction spellPiAfter afterDigit text with
  | case1 => rw [spellPiByBytes]; rfl
  | case2 afterDigit rest ih =>
    have hhead : splitBytes? (headBytes 'p' ('i' :: rest)) ('p' :: 'i' :: rest) =
        some (['p', 'i'], rest) := splitBytes?_byteLength ['p', 'i'] rest
    have hpi : startsWithPi 'p' ('i' :: rest) = true := rfl
    rw [spellPiByBytes_cons hhead, if_pos hpi, ih]
    rfl
  | case3 afterDigit rest ih =>
    have hhead : splitBytes? (headBytes 'π' rest) ('π' :: rest) = some (['π'], rest) :=
      splitBytes?_byteLength ['π'] rest
    have hpi : startsWithPi 'π' rest = true := by simp [startsWithPi]
    rw [spellPiByBytes_cons hhead, if_pos hpi, ih]
    rfl
  | case4 afterDigit c rest hword hletter ih =>
    have hp : ¬ (c = 'p' ∧ rest.head? = some 'i') := by
      rintro ⟨rfl, hi⟩
      obtain ⟨rest, rfl⟩ := List.head?_eq_some_iff.1 hi
      exact hword rest rfl rfl
    have hhead : splitBytes? (headBytes c rest) (c :: rest) = some ([c], rest) := by
      rw [headBytes, if_neg hp]
      exact splitBytes?_byteLength [c] rest
    have hpi : ¬ startsWithPi c rest = true := by
      rw [startsWithPi, Bool.or_eq_true, Bool.and_eq_true]
      simpa using ⟨fun hc hi => hp ⟨hc, hi⟩, hletter⟩
    rw [spellPiByBytes_cons hhead, if_neg hpi, ih]
    rfl

/-! ## No promise is broken -/

/-- The result is no fault, and a value that is read has the property. -/
def Yields {β : Type} (post : β → Prop) : Except Failure β → Prop
  | .ok b => post b
  | .error (.invalid _) => True
  | .error (.fault _) => False

section Yields

variable {β γ : Type} {post : β → Prop} {post' : γ → Prop}

theorem Yields.bind {x : Except Failure β} {f : β → Except Failure γ} (hx : Yields post x)
    (hf : ∀ b, post b → Yields post' (f b)) : Yields post' (x >>= f) := by
  match x, hx with
  | .ok b, hx => exact hf b hx
  | .error (.invalid e), _ => trivial

theorem Yields.ne_fault {x : Except Failure β} (hx : Yields post x) (f : Fault) :
    x ≠ .error (.fault f) := by
  rintro rfl
  exact hx

theorem BlamesWithin.yields {source : List Char} {x : Except Failure β}
    (hx : BlamesWithin source x) : Yields (fun _ => True) x := by
  match x, hx with
  | .ok b, _ => trivial
  | .error (.invalid e), _ => trivial

end Yields

/-- Every exponent has one sum, and is not the greatest machine word. -/
structure IsSums {α : Type} (sums : List (Nat × Coefficient α)) : Prop where
  nodup : (sums.map Prod.fst).Nodup
  lt : ∀ k ∈ sums.map Prod.fst, k < wordSize - 1

theorem IsSums.accumulate {α : Type} [Scalar α] {sums : List (Nat × Coefficient α)}
    (h : IsSums sums) (c : Coefficient α) {e : Nat} (he : e < wordSize - 1) :
    IsSums (accumulate c e sums) where
  nodup := nodup_keys_accumulate c e h.nodup
  lt := by
    rw [keys_accumulate]
    split
    · exact h.lt
    · exact List.forall_mem_append.2 ⟨h.lt, List.forall_mem_singleton.2 he⟩

section Promises

variable {source : List Char} {s : Span}

/-- The greatest machine word is no exponent of a term. -/
theorem readTerm_yields (h : s.IsPartOf source) :
    Yields (fun t => t.exponent < wordSize - 1) (readTerm s) := by
  obtain ⟨before, text, after, rfl, rfl⟩ := h
  rcases spellsTerm_or_termFault before after text with ⟨t, ht⟩ | ⟨e, he⟩
  · rw [readTerm_of_spellsTerm before after ht]
    exact ht.exponent_lt
  · rw [readTerm_of_termFault before after he]
    trivial

variable {α : Type} [Scalar α]

theorem readTerms_yields {spans : List Span} (h : ∀ s ∈ spans, s.IsPartOf source) :
    ∀ {sums : List (Nat × Coefficient α)}, IsSums sums → Yields IsSums (readTerms sums spans) := by
  induction spans with
  | nil => exact fun hsums => hsums
  | cons span rest ih =>
    intro sums hsums
    rw [List.forall_mem_cons] at h
    exact (readTerm_yields h.1).bind fun t ht => ih h.2 (hsums.accumulate _ ht)

/-- Every write is inside the list, however long a list memory allows. -/
theorem dense_yields (most : Nat) (body : Span) {sums : List (Nat × Coefficient α)}
    (h : IsSums sums) : Yields (fun _ => True) (dense most body sums) := by
  rw [dense, denseLength_eq_ok h.lt, lift_ok, ok_bind]
  generalize hlargest : (sums.map Prod.fst).foldr max 0 = largest
  have hlt : ∀ k ∈ sums.map Prod.fst,
      k < (List.replicate (largest + 1) (.ofInt 0 : Coefficient α)).length := by
    intro k hk
    rw [List.length_replicate, Nat.lt_succ_iff]
    exact foldr_max_le_iff.1 hlargest.le k hk
  obtain ⟨result, hfill, -⟩ := fill_eq_ok h.nodup hlt
  split
  · trivial
  · rw [hfill]
    trivial

theorem readPolynomial_yields (most : Nat) (h : s.IsPartOf source) :
    Yields (fun _ => True) (readPolynomial (α := α) most s) := by
  obtain ⟨found, hfound, hpart⟩ := exists_body?_eq_ok h
  rw [readPolynomial, hfound, lift_ok, ok_bind]
  cases found with
  | none => trivial
  | some body =>
    obtain ⟨terms, hterms, hmem⟩ := (hpart body rfl).terms
    have hsums : IsSums ([] : List (Nat × Coefficient α)) := ⟨List.nodup_nil, by simp⟩
    dsimp only
    rw [hterms, lift_ok, ok_bind]
    split
    · trivial
    · refine (readTerms_yields hmem hsums).bind fun sums hsums => ?_
      exact (dense_yields most body hsums).bind fun _ _ => trivial

theorem parse_yields (most : Nat) (text : String) :
    Yields (fun _ => True) (parse (α := α) most text) := by
  have hpart := isPartOf_whole (withoutBlanks text.toList)
  rw [parse, readCurve, isParametric_whole, lift_ok, ok_bind]
  split
  · exact (readParametric_blamesWithin hpart).yields.bind fun _ _ => trivial
  · exact (readPolynomial_yields most hpart).bind fun _ _ => trivial

end Promises

/-- A list of coefficients can be one longer than any exponent that is accepted. -/
theorem exponent_lt_of_readTerm {s : Span} {t : Term} (h : readTerm s = .ok t) :
    t.exponent < wordSize - 1 := by
  cases htext : s.text with
  | error f =>
    rw [readTerm, cut?, Span.find?, htext] at h
    cases h
  | ok text =>
    have hyields := readTerm_yields (isPartOf_of_text htext)
    rw [h] at hyields
    exact hyields

variable {α : Type} [Scalar α]

/-- **Reading keeps all promises.** Whatever the text, and however many coefficients memory can be
set aside for, every part that reading cuts out lies in its source on character boundaries, no
length is below zero, no count leaves the machine word, and every write is inside the list. Spelling
out pi cuts between two characters only. No exponent that is accepted is the greatest machine
word. -/
theorem parse_keeps_promises (text : String) :
    (∀ most f, parse (α := α) most text ≠ .error (.fault f)) ∧
      (∀ bound, spellPiByBytes false bound = .ok (spellPi bound)) ∧
      ∀ span t, readTerm span = .ok t → t.exponent + 1 < wordSize := by
  refine ⟨fun most => (parse_yields most text).ne_fault,
    fun bound => spellPiByBytes_eq_ok bound false, fun span t h => ?_⟩
  have := exponent_lt_of_readTerm h
  omega

/-- The greatest exponent of all, with memory for one coefficient less than it asks for, in a text
with letters of two bytes. -/
theorem parse_keeps_promises_greatestExponent :
    ∃ t, readTerm (whole "x^18446744073709551614".toList) = .ok t ∧ t.exponent + 1 < wordSize ∧
      ∀ f, parse (α := Float) t.exponent "y = x^18446744073709551614 - 2π" ≠
        .error (.fault f) := by
  obtain ⟨hfault, -, hexponent⟩ :=
    parse_keeps_promises (α := Float) "y = x^18446744073709551614 - 2π"
  have hread : readTerm (whole "x^18446744073709551614".toList) =
      .ok ⟨18446744073709551614, unitLiteral false⟩ := by rfl
  exact ⟨_, hread, hexponent _ _ hread, hfault _⟩

end PlotSheet.Equation
