import PlotSheet.Number.Layout
import PlotSheet.Proofs.Equation.Pi

/-!
# Spelling out pi

A text is cut at its leftmost pis that do not overlap. Spelling it out puts digits in place of these
pis and keeps what stands between them. No two pis of a text overlap, so none is passed over. The
digits make no new one with what stands around them, so that nothing is left to be spelt out and a
changed text is the sign of a pi.

## Main definitions

* `HasPi`: a pi stands somewhere in a text
* `LeftmostPis`: the cut of a text at its leftmost pis that do not overlap
* `spelledOut`: the pis of a cut replaced by digits

## Main results

* `not_hasPi_spellPiAfter`, `spellPi_eq_self_iff`: no pi is left, and only pis are replaced
* `exists_leftmostPis`, `LeftmostPis.unique`: every text has one such cut
* `LeftmostPis.eq_append_iff`: a pi stands in the text exactly where it is cut
* `spellPi_replaces_pis`: spelling out replaces the pis of the cut, and reading a bound notices
  whether there are any
-/

namespace PlotSheet.Equation

open Text PlotSheet.Span

/-- A pi stands somewhere in the text. -/
def HasPi (text : List Char) : Prop :=
  ∃ word ∈ piWords, word <:+: text

/-- A pi of a text, and what stands between the pi before it, or the start of the text, and it. -/
structure WrittenPi where
  gap : List Char
  word : List Char

/-- The text that consecutive pis take up. -/
def written (pis : List WrittenPi) : List Char :=
  pis.flatMap fun p => p.gap ++ p.word

/-- The text is cut at its leftmost pis that do not overlap: at the first pi that stands in it, and
what stands behind that one in the same way, until there is none left. -/
inductive LeftmostPis : (text : List Char) → List WrittenPi → (rest : List Char) → Prop
  | none {text : List Char} : ¬ HasPi text → LeftmostPis text [] text
  | first {gap word behind rest : List Char} {pis : List WrittenPi} :
    word ∈ piWords →
    (∀ l, ∀ w ∈ piWords, ∀ r, gap ++ (word ++ behind) = l ++ (w ++ r) → gap.length ≤ l.length) →
    LeftmostPis behind pis rest → LeftmostPis (gap ++ (word ++ behind)) (⟨gap, word⟩ :: pis) rest

/-- The digits of π in place of each pi, as a further factor if a digit, a point or another pi is
right ahead of it. -/
def spelledOut (behindPi : Bool) (rest : List Char) : List WrittenPi → List Char
  | [] => rest
  | p :: more => p.gap ++ (piFactor (endsInNumber behindPi p.gap) ++ spelledOut true rest more)

/-- The digits of π are the text of the number nearest to it. -/
theorem write_pi : Layout.plain.write pi = piDigits := by
  rfl

/-! ## Texts without a pi -/

theorem not_hasPi_nil : ¬ HasPi [] := by
  simp [HasPi, piWords]

theorem hasPi_iff {text : List Char} : HasPi text ↔ ['p', 'i'] <:+: text ∨ ['π'] <:+: text := by
  simp [HasPi, piWords]

/-- A pi stands right at the start of a text, or behind its first character. -/
theorem hasPi_cons_iff {c : Char} {text : List Char} :
    HasPi (c :: text) ↔ ((c = 'p' ∧ text.head? = some 'i') ∨ c = 'π') ∨ HasPi text := by
  have hpi : ['p', 'i'] <+: c :: text ↔ c = 'p' ∧ text.head? = some 'i' := by
    cases text <;> simp [List.cons_prefix_cons, eq_comm]
  have hletter : ['π'] <+: c :: text ↔ c = 'π' := by
    simp [List.cons_prefix_cons, eq_comm]
  rw [hasPi_iff, List.infix_cons_iff, List.infix_cons_iff, hpi, hletter, or_or_or_comm, ← hasPi_iff]

theorem HasPi.of_infix {part text : List Char} (h : HasPi part) (hpart : part <:+: text) :
    HasPi text := by
  obtain ⟨word, hword, hinfix⟩ := h
  exact ⟨word, hword, hinfix.trans hpart⟩

/-- Characters that no pi holds make none with what follows them. -/
theorem hasPi_append_iff_of_not_mem {x text : List Char} (hp : 'p' ∉ x) (hpi : 'π' ∉ x) :
    HasPi (x ++ text) ↔ HasPi text := by
  induction x with
  | nil => rfl
  | cons c x ih =>
    obtain ⟨hcp, hp⟩ := List.ne_and_not_mem_of_not_mem_cons hp
    obtain ⟨hcpi, hpi⟩ := List.ne_and_not_mem_of_not_mem_cons hpi
    rw [List.cons_append, hasPi_cons_iff, ih hp hpi]
    simp [hcp.symm, hcpi.symm]

theorem spellPiAfter_of_not_hasPi {text : List Char} (h : ¬ HasPi text) (b : Bool) :
    spellPiAfter b text = text := by
  refine (exists_of_spellPiAfter_ne b text).resolve_right ?_
  rintro ⟨ahead, word, hword, behind, rfl, -⟩
  exact h ⟨word, hword, ahead, behind, by simp⟩

/-! ## Spelt-out texts -/

theorem head?_piFactor_append (b : Bool) (rest : List Char) :
    (piFactor b ++ rest).head? ≠ some 'i' := by
  have hhead : (piFactor b).head? = some (if b then '*' else '3') := by cases b <;> decide
  rw [List.head?_append, hhead, Option.some_or]
  cases b <;> decide

/-- Neither a star nor a digit is the second letter of a pi. -/
theorem head?_spellPiAfter {b : Bool} {text : List Char}
    (h : (spellPiAfter b text).head? = some 'i') : text.head? = some 'i' := by
  revert h
  fun_cases spellPiAfter b text with
  | case1 => exact id
  | case2 rest => exact fun h => absurd h (head?_piFactor_append b _)
  | case3 rest => exact fun h => absurd h (head?_piFactor_append b _)
  | case4 c rest => exact id

theorem hasPi_piFactor_append_iff {b : Bool} {text : List Char} :
    HasPi (piFactor b ++ text) ↔ HasPi text :=
  hasPi_append_iff_of_not_mem (by cases b <;> decide) (by cases b <;> decide)

/-- No pi is left in a spelt-out text. -/
theorem not_hasPi_spellPiAfter (b : Bool) (text : List Char) : ¬ HasPi (spellPiAfter b text) := by
  fun_induction spellPiAfter b text with
  | case1 => exact not_hasPi_nil
  | case2 b rest ih => rwa [hasPi_piFactor_append_iff]
  | case3 b rest ih => rwa [hasPi_piFactor_append_iff]
  | case4 b c rest hp hpi ih =>
    rw [hasPi_cons_iff]
    rintro ((⟨rfl, hi⟩ | rfl) | h)
    · obtain ⟨rest, rfl⟩ := List.head?_eq_some_iff.1 (head?_spellPiAfter hi)
      exact hp rest rfl rfl
    · exact hpi rfl
    · exact ih h

theorem spellPi_spellPi (text : List Char) : spellPi (spellPi text) = spellPi text :=
  spellPiAfter_of_not_hasPi (not_hasPi_spellPiAfter false text) false

theorem spellPi_eq_self_iff {text : List Char} : spellPi text = text ↔ ¬ HasPi text := by
  constructor
  · intro h
    rw [← h]
    exact not_hasPi_spellPiAfter false text
  · exact fun h => spellPiAfter_of_not_hasPi h false

/-! ## The leftmost pis -/

theorem ne_nil_of_mem_piWords {word : List Char} (h : word ∈ piWords) : word ≠ [] := by
  rcases mem_piWords_iff.1 h with rfl | rfl <;> simp

/-- At most one pi stands at a place. -/
theorem word_append_inj {word w behind r : List Char} (hword : word ∈ piWords) (hw : w ∈ piWords)
    (h : word ++ behind = w ++ r) : word = w ∧ behind = r := by
  rcases mem_piWords_iff.1 hword with rfl | rfl <;> rcases mem_piWords_iff.1 hw with rfl | rfl <;>
    simp_all

/-- No pi starts inside another one. -/
theorem eq_nil_or_of_word_append {word w behind l r : List Char} (hword : word ∈ piWords)
    (hw : w ∈ piWords) (h : word ++ behind = l ++ (w ++ r)) :
    l = [] ∨ ∃ l', l = word ++ l' ∧ behind = l' ++ (w ++ r) := by
  cases l with
  | nil => exact .inl rfl
  | cons c l =>
    rcases mem_piWords_iff.1 hword with rfl | rfl
    · obtain ⟨rfl, htail⟩ : 'p' = c ∧ 'i' :: behind = l ++ (w ++ r) := by simpa using h
      cases l with
      | nil =>
        have hhead := head?_word_append hw r
        rw [List.nil_append] at htail
        rw [← htail] at hhead
        exact absurd rfl hhead
      | cons d l =>
        obtain ⟨rfl, hbehind⟩ := List.cons.inj htail
        exact .inr ⟨l, rfl, hbehind⟩
    · obtain ⟨rfl, hbehind⟩ := List.cons.inj h
      exact .inr ⟨l, rfl, hbehind⟩

/-- A gap without a pi holds no start of one either. -/
theorem prefix_of_not_hasPi {gap word behind l w r : List Char} (hgap : ¬ HasPi gap)
    (hword : word ∈ piWords) (hw : w ∈ piWords)
    (h : gap ++ (word ++ behind) = l ++ (w ++ r)) : gap <+: l := by
  rcases List.append_eq_append_iff.1 h with ⟨l', rfl, -⟩ | ⟨back, rfl, hback⟩
  · exact List.prefix_append ..
  · -- a pi from inside the gap on would end in the gap, as it cannot reach into the next one
    rcases eq_nil_or_of_word_append hw hword hback with rfl | ⟨back, rfl, -⟩
    · simp
    · exact absurd ⟨w, hw, l, back, by simp⟩ hgap

/-- The gap ahead of a leftmost pi has no pi. -/
theorem not_hasPi_of_leftmost {gap word behind : List Char}
    (h : ∀ l, ∀ w ∈ piWords, ∀ r, gap ++ (word ++ behind) = l ++ (w ++ r) →
      gap.length ≤ l.length) : ¬ HasPi gap := by
  rintro ⟨w, hw, l, r, rfl⟩
  have hle := h l w hw (r ++ (word ++ behind)) (by simp)
  have hpos := List.length_pos_iff.2 (ne_nil_of_mem_piWords hw)
  simp only [List.length_append] at hle
  omega

/-- A pi behind a gap without one is a leftmost pi. -/
theorem LeftmostPis.of_not_hasPi {gap word behind rest : List Char} {pis : List WrittenPi}
    (hgap : ¬ HasPi gap) (hword : word ∈ piWords) (h : LeftmostPis behind pis rest) :
    LeftmostPis (gap ++ (word ++ behind)) (⟨gap, word⟩ :: pis) rest :=
  .first hword (fun _ _ hw _ htext => (prefix_of_not_hasPi hgap hword hw htext).length_le) h

/-- Every text can be cut at its leftmost pis. -/
theorem exists_leftmostPis (text : List Char) : ∃ pis rest, LeftmostPis text pis rest := by
  rcases exists_of_spellPiAfter_ne false text with hself | ⟨gap, word, hword, behind, htext, hspell⟩
  · exact ⟨[], text, .none (spellPi_eq_self_iff.1 hself)⟩
  · have hgap : ¬ HasPi gap := by
      intro h
      refine not_hasPi_spellPiAfter false text (hspell ▸ h.of_infix ?_)
      exact (List.prefix_append ..).isInfix
    obtain ⟨pis, rest, hpis⟩ := exists_leftmostPis behind
    exact ⟨_, rest, htext ▸ hpis.of_not_hasPi hgap hword⟩
termination_by text.length
decreasing_by
  have hpos := List.length_pos_iff.2 (ne_nil_of_mem_piWords hword)
  simp only [htext, List.length_append]
  omega

namespace LeftmostPis

variable {text rest : List Char} {pis : List WrittenPi}

theorem text_eq (h : LeftmostPis text pis rest) : text = written pis ++ rest := by
  induction h with
  | none => rfl
  | first hword _ _ ih => simp [written, ih]

/-- There is one such cut. -/
theorem unique (h : LeftmostPis text pis rest) {pis' : List WrittenPi} {rest' : List Char}
    (h' : LeftmostPis text pis' rest') : pis' = pis ∧ rest' = rest := by
  induction h generalizing pis' rest' with
  | none hfree =>
    cases h' with
    | none => exact ⟨rfl, rfl⟩
    | @first gap word behind _ _ hword => exact absurd ⟨word, hword, gap, behind, by simp⟩ hfree
  | @first gap word behind rest pis hword hleft _ ih =>
    generalize htext : gap ++ (word ++ behind) = text at h'
    cases h' with
    | none hfree => exact absurd ⟨word, hword, gap, behind, by simp [← htext]⟩ hfree
    | @first gap' word' behind' _ _ hword' hleft' h' =>
      have hlength : gap.length = gap'.length := by
        have := hleft gap' word' hword' behind' htext
        have := hleft' gap word hword behind htext.symm
        omega
      obtain ⟨rfl, hrest⟩ := List.append_inj htext hlength
      obtain ⟨rfl, rfl⟩ := word_append_inj hword hword' hrest
      obtain ⟨rfl, rfl⟩ := ih h'
      exact ⟨rfl, rfl⟩

/-- A pi stands in the text exactly where the text is cut. -/
theorem eq_append_iff (h : LeftmostPis text pis rest) {l w r : List Char} (hw : w ∈ piWords) :
    text = l ++ (w ++ r) ↔ ∃ ahead p behind, pis = ahead ++ p :: behind ∧
      l = written ahead ++ p.gap ∧ w = p.word ∧ r = written behind ++ rest := by
  constructor
  · intro htext
    induction h generalizing l with
    | none hfree => exact absurd ⟨w, hw, l, r, by simp [htext]⟩ hfree
    | @first gap word behind rest pis hword hleft hpis ih =>
      obtain ⟨l, rfl⟩ := prefix_of_not_hasPi (not_hasPi_of_leftmost hleft) hword hw htext
      rw [List.append_assoc, List.append_cancel_left_eq] at htext
      rcases eq_nil_or_of_word_append hword hw htext with rfl | ⟨l, rfl, hbehind⟩
      · obtain ⟨rfl, rfl⟩ := word_append_inj hword hw htext
        exact ⟨[], _, pis, rfl, by simp [written], rfl, hpis.text_eq⟩
      · obtain ⟨ahead, p, after, rfl, rfl, rfl, rfl⟩ := ih hbehind
        exact ⟨⟨gap, word⟩ :: ahead, p, after, rfl, by simp [written], rfl, rfl⟩
  · rintro ⟨ahead, p, behind, rfl, rfl, rfl, rfl⟩
    rw [h.text_eq]
    simp [written]

/-- Spelling out replaces the leftmost pis. -/
theorem spellPiAfter_eq (h : LeftmostPis text pis rest) (b : Bool) :
    spellPiAfter b text = spelledOut b rest pis := by
  induction h generalizing b with
  | none hfree => exact spellPiAfter_of_not_hasPi hfree b
  | first hword hleft _ ih =>
    -- no letter of the pi behind it completes one at the end of the gap
    have hgap := spellPiAfter_of_not_hasPi (not_hasPi_of_leftmost hleft) b
    rw [spellPiAfter_append b _ (head?_word_append hword _), hgap, spellPiAfter_word hword, ih]
    rfl

end LeftmostPis

/-! ## Replacing pis -/

/-- The pi of a bound is noticed by the change of its text. -/
theorem readBound_of_hasPi {α : Type} [Scalar α] (before after : List Char) {text : List Char}
    (h : HasPi text) :
    readBound (α := α) (between before text after) =
      relocate (between before text after) (readProduct (whole (spellPi text))) := by
  rw [readBound_between, if_neg (not_not_intro h ∘ spellPi_eq_self_iff.1), ← whole_eq_between]

theorem readBound_of_not_hasPi {α : Type} [Scalar α] (before after : List Char) {text : List Char}
    (h : ¬ HasPi text) :
    readBound (α := α) (between before text after) = readProduct (between before text after) := by
  rw [readBound_between, if_pos (spellPi_eq_self_iff.2 h)]

/-- **Pi is spelt out.** Every text has one cut at its leftmost pis that do not overlap, and a pi
stands in the text exactly where it is cut. Spelling out keeps what stands between these pis and
puts the digits of the number π in their place, with a star ahead of those right behind a digit, a
point or another pi. No pi is left, so spelling out twice is spelling out once; the text is changed
exactly if a pi stands in it, and this is how a bound with a pi is told from one without. -/
theorem spellPi_replaces_pis (α : Type) [Scalar α] (text : List Char) :
    (∃ (pis : List WrittenPi) (rest : List Char),
      (∀ pis' rest', LeftmostPis text pis' rest' ↔ pis' = pis ∧ rest' = rest) ∧
      (∀ l, ∀ w ∈ piWords, ∀ r, text = l ++ (w ++ r) ↔
        ∃ ahead p behind, pis = ahead ++ p :: behind ∧
          l = written ahead ++ p.gap ∧ w = p.word ∧ r = written behind ++ rest) ∧
      spellPi text = spelledOut false rest pis) ∧
    Layout.plain.write pi = piDigits ∧
    ¬ HasPi (spellPi text) ∧
    spellPi (spellPi text) = spellPi text ∧
    (spellPi text = text ↔ ¬ HasPi text) ∧
    ∀ before after,
      (HasPi text → readBound (α := α) (between before text after) =
        relocate (between before text after) (readProduct (whole (spellPi text)))) ∧
      (¬ HasPi text → readBound (α := α) (between before text after) =
        readProduct (between before text after)) := by
  obtain ⟨pis, rest, hpis⟩ := exists_leftmostPis text
  refine ⟨⟨pis, rest, fun pis' rest' => ⟨hpis.unique, ?_⟩, fun l w hw r => hpis.eq_append_iff hw,
    hpis.spellPiAfter_eq false⟩, write_pi, not_hasPi_spellPiAfter false text, spellPi_spellPi text,
    spellPi_eq_self_iff, fun before after =>
      ⟨readBound_of_hasPi before after, readBound_of_not_hasPi before after⟩⟩
  rintro ⟨rfl, rfl⟩
  exact hpis

/-- A pi between two of its letters, one behind a point and one behind another pi; the text is read
as the longer one that it stands for. -/
theorem spellPi_replaces_pis_nested :
    ∃ text : List Char, text = "ppii2.ππ".toList ∧ HasPi text ∧
      spellPi text =
        "p3.141592653589793i2.*3.141592653589793*3.141592653589793".toList ∧
      ¬ HasPi (spellPi text) ∧
      readBound (α := Float) (between [] text []) =
        relocate (between [] text []) (readProduct (whole (spellPi text))) := by
  have hpi : HasPi "ppii2.ππ".toList :=
    ⟨['p', 'i'], List.mem_cons_self, ['p'], "i2.ππ".toList, by decide⟩
  obtain ⟨-, -, hfree, -, -, hread⟩ := spellPi_replaces_pis Float "ppii2.ππ".toList
  exact ⟨_, rfl, hpi, by decide, hfree, (hread [] []).1 hpi⟩

end PlotSheet.Equation
