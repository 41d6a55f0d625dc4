import PlotSheet.Text.Slice

/-!
# Signed terms

A text is cut into signed terms right before every sign that is not its first character. The cut
is described without the scanner: nothing is lost, a sign stands only at the start of a term, and
every term but the first starts with one. There is exactly one such cut of every text.

## Main definitions

* `signedTerms`: the signed terms of a text
* `IsSignedSplit`: the terms are the signed terms of a text

## Main results

* `isSignedSplit_signedTerms`: the scanner cuts so
* `isSignedSplit_iff`: there is no other cut
* `IsSignedSplit.append`: the cut of a text and of another one that starts with a sign
-/

namespace PlotSheet.Text

/-- The signed terms of a text: a new one starts right before every sign but the first
character. -/
def signedTerms : List Char → List (List Char)
  | [] => []
  | [c] => [[c]]
  | c :: d :: rest =>
    if isSign d then [c] :: signedTerms (d :: rest)
    else match signedTerms (d :: rest) with
      | [] => [[c]]
      | term :: more => (c :: term) :: more

/-- The terms are the signed terms of the text. -/
structure IsSignedSplit (text : List Char) (terms : List (List Char)) : Prop where
  /-- The terms are the text, in order. -/
  flatten_eq : terms.flatten = text
  ne_nil : ∀ t ∈ terms, t ≠ []
  /-- Behind the first character of a term there is no sign. -/
  not_isSign_of_mem_tail : ∀ t ∈ terms, ∀ c ∈ t.tail, isSign c = false
  /-- Every term but the first starts with a sign. -/
  isSign_head : ∀ t ∈ terms.tail, ∃ c rest, t = c :: rest ∧ isSign c = true

theorem signedTerms_ne_nil {text : List Char} (h : text ≠ []) : signedTerms text ≠ [] := by
  fun_cases signedTerms text <;> simp_all

/-- Characters that are no signs stay with the character ahead of them. -/
theorem signedTerms_cons_append {rest tail : List Char}
    (hrest : ∀ d ∈ rest, isSign d = false)
    (htail : tail = [] ∨ ∃ d tail', tail = d :: tail' ∧ isSign d = true) :
    ∀ c, signedTerms (c :: rest ++ tail) = (c :: rest) :: signedTerms tail := by
  induction rest with
  | nil =>
    intro c
    rcases htail with rfl | ⟨d, tail', rfl, hd⟩
    · rfl
    · simp [signedTerms, hd]
  | cons d rest ih =>
    intro c
    have hd : isSign d = false := hrest d List.mem_cons_self
    have ih := ih (fun e he => hrest e (List.mem_cons_of_mem _ he)) d
    simp only [List.cons_append] at ih ⊢
    rw [signedTerms, ih]
    simp [hd]

namespace IsSignedSplit

theorem nil : IsSignedSplit [] [] where
  flatten_eq := rfl
  ne_nil := by simp
  not_isSign_of_mem_tail := by simp
  isSign_head := by simp

/-- One more term in front, with the terms behind it starting with a sign. -/
theorem cons (c : Char) (rest : List Char) {tail : List Char} {terms : List (List Char)}
    (hrest : ∀ d ∈ rest, isSign d = false) (h : IsSignedSplit tail terms)
    (htail : tail = [] ∨ ∃ d tail', tail = d :: tail' ∧ isSign d = true) :
    IsSignedSplit (c :: rest ++ tail) ((c :: rest) :: terms) where
  flatten_eq := by simp [h.flatten_eq]
  ne_nil := by simpa using h.ne_nil
  not_isSign_of_mem_tail := by simpa using ⟨hrest, h.not_isSign_of_mem_tail⟩
  isSign_head := by
    intro t ht
    rw [List.tail_cons] at ht
    cases terms with
    | nil => cases ht
    | cons u more =>
      rcases List.mem_cons.1 ht with rfl | ht
      · obtain ⟨e, u, rfl⟩ := List.exists_cons_of_ne_nil (h.ne_nil _ List.mem_cons_self)
        rcases htail with rfl | ⟨d, tail', rfl, hd⟩
        · simpa using h.flatten_eq
        · have := h.flatten_eq
          simp only [List.flatten_cons, List.cons_append, List.cons.injEq] at this
          exact ⟨e, u, rfl, this.1 ▸ hd⟩
      · exact h.isSign_head t ht

/-- The terms behind the first one are a cut of their own, of a text that starts with a sign. -/
theorem tail {text t : List Char} {terms : List (List Char)} (h : IsSignedSplit text (t :: terms)) :
    IsSignedSplit terms.flatten terms ∧
      (terms.flatten = [] ∨ ∃ d rest, terms.flatten = d :: rest ∧ isSign d = true) := by
  refine ⟨⟨rfl, fun u hu => h.ne_nil u (List.mem_cons_of_mem _ hu),
    fun u hu => h.not_isSign_of_mem_tail u (List.mem_cons_of_mem _ hu),
    fun u hu => h.isSign_head u (List.mem_of_mem_tail hu)⟩, ?_⟩
  cases terms with
  | nil => exact .inl rfl
  | cons u more =>
    obtain ⟨d, rest, rfl, hd⟩ := h.isSign_head u List.mem_cons_self
    exact .inr ⟨d, rest ++ more.flatten, by simp, hd⟩

/-- All terms of a text that starts with a sign start with one. -/
theorem isSign_of_mem {text : List Char} {terms : List (List Char)} (h : IsSignedSplit text terms)
    (htext : ∃ c rest, text = c :: rest ∧ isSign c = true) :
    ∀ t ∈ terms, ∃ c rest, t = c :: rest ∧ isSign c = true := by
  obtain ⟨c, rest, rfl, hc⟩ := htext
  intro t ht
  cases terms with
  | nil => cases ht
  | cons u more =>
    rcases List.mem_cons.1 ht with rfl | ht
    · obtain ⟨d, u, rfl⟩ := List.exists_cons_of_ne_nil (h.ne_nil _ List.mem_cons_self)
      have hflat := h.flatten_eq
      simp only [List.flatten_cons, List.cons_append, List.cons.injEq] at hflat
      exact ⟨d, u, rfl, hflat.1 ▸ hc⟩
    · exact h.isSign_head t ht

/-- No term reaches over the sign at which another text is appended. -/
theorem append {a b : List Char} {s t : List (List Char)} (hs : IsSignedSplit a s)
    (ht : IsSignedSplit b t) (ha : a ≠ []) (hb : ∃ c rest, b = c :: rest ∧ isSign c = true) :
    IsSignedSplit (a ++ b) (s ++ t) where
  flatten_eq := by rw [List.flatten_append, hs.flatten_eq, ht.flatten_eq]
  ne_nil := List.forall_mem_append.2 ⟨hs.ne_nil, ht.ne_nil⟩
  not_isSign_of_mem_tail :=
    List.forall_mem_append.2 ⟨hs.not_isSign_of_mem_tail, ht.not_isSign_of_mem_tail⟩
  isSign_head := by
    have hne : s ≠ [] := by
      rintro rfl
      exact ha hs.flatten_eq.symm
    rw [List.tail_append_of_ne_nil hne]
    exact List.forall_mem_append.2 ⟨hs.isSign_head, ht.isSign_of_mem hb⟩

end IsSignedSplit

/-- The scanner starts a new term right before every sign but the first character. -/
theorem isSignedSplit_signedTerms (text : List Char) : IsSignedSplit text (signedTerms text) := by
  fun_induction signedTerms text with
  | case1 => exact .nil
  | case2 c => simpa using IsSignedSplit.cons c [] (by simp) .nil (.inl rfl)
  | case3 c d rest hd ih =>
    simpa using IsSignedSplit.cons c [] (by simp) ih (.inr ⟨d, rest, rfl, hd⟩)
  | case4 c d rest hd h ih => exact absurd h (signedTerms_ne_nil (by simp))
  | case5 c d rest hd t more h ih =>
    rw [h] at ih
    obtain ⟨e, t, rfl⟩ := List.exists_cons_of_ne_nil (ih.ne_nil _ List.mem_cons_self)
    have hflat := ih.flatten_eq
    simp only [List.flatten_cons, List.cons_append, List.cons.injEq] at hflat
    obtain ⟨rfl, rfl⟩ := hflat
    have hd' : ∀ c ∈ e :: t, isSign c = false := by
      simpa [hd] using ih.not_isSign_of_mem_tail _ List.mem_cons_self
    exact IsSignedSplit.cons c _ hd' ih.tail.1 ih.tail.2

@[simp] theorem flatten_signedTerms (text : List Char) : (signedTerms text).flatten = text :=
  (isSignedSplit_signedTerms text).flatten_eq

/-- There is exactly one cut of a text into signed terms. -/
theorem isSignedSplit_iff {text : List Char} {terms : List (List Char)} :
    IsSignedSplit text terms ↔ terms = signedTerms text := by
  constructor
  · intro h
    induction terms generalizing text with
    | nil => rw [← h.flatten_eq]; rfl
    | cons t more ih =>
      obtain ⟨c, rest, rfl⟩ := List.exists_cons_of_ne_nil (h.ne_nil _ List.mem_cons_self)
      have hrest : ∀ d ∈ rest, isSign d = false := h.not_isSign_of_mem_tail _ List.mem_cons_self
      rw [← h.flatten_eq, List.flatten_cons, signedTerms_cons_append hrest h.tail.2,
        ← ih h.tail.1]
  · rintro rfl
    exact isSignedSplit_signedTerms text

end PlotSheet.Text
