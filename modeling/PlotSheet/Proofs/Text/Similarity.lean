import PlotSheet.Fault
import PlotSheet.Proofs.Number.Quotient
import PlotSheet.Text.Similarity

/-!
# The most similar candidate

Similarities are shares: numbers between zero and one, which are never undefined. Scores that are not
undefined are compared as their exact values, and of these a scan that only takes what is strictly
better keeps the first maximum. The candidate that is proposed for a text is therefore the first of
the most similar ones, and whether there is one depends on the greatest similarity alone. This holds
of every measure of similarity. The distance of two words is at most the length of the longer one, so
that the measure that counts edits is one of them.

## Main definitions

* `RowBounded`: no entry of a row of the table exceeds both beginnings that it belongs to
* `IsShare`: a number between zero and one
* `IsFirstBest`: an entry is the first one of a list with the greatest score
* `Defined`: no score of a list is undefined

## Main results

* `distance_le`: the distance of two words is at most the length of the longer one
* `isShare_similarity`: similarities are shares
* `isFirstBest_firstBest`: the scan finds the first maximum
* `closest?_firstBest`: the candidate that is proposed for a text
-/

namespace PlotSheet.Text

open Binary

/-! ## The distance of two words -/

/-- No entry of the row, from column `j` on, exceeds both its column and `i`. -/
def RowBounded (i : Nat) : Nat → List Nat → Prop
  | _, [] => True
  | j, entry :: row => entry ≤ max i j ∧ RowBounded i (j + 1) row

theorem RowBounded.le_of_mem {i n : Nat} {row : List Nat} :
    ∀ {j : Nat}, RowBounded i j row → j + row.length ≤ n + 1 → ∀ entry ∈ row, entry ≤ max i n := by
  induction row with
  | nil => exact fun _ _ => nofun
  | cons entry row ih =>
    rintro j ⟨hentry, hrow⟩ hlength
    rw [List.length_cons] at hlength
    have hrest := ih hrow (by omega)
    exact List.forall_mem_cons.2 ⟨by omega, hrest⟩

theorem rowBounded_range' (start : Nat) (n : Nat) : RowBounded 0 start (List.range' start n) := by
  induction n generalizing start with
  | zero => trivial
  | succ n ih => exact ⟨le_max_right 0 start, ih (start + 1)⟩

/-- An entry is at most one more than the entry diagonal to it. -/
theorem rowBounded_rowFrom (rows : List (List Nat)) (a : List Char) (c : Char)
    (left matched j : Nat) (above : List Nat) (b : List Char) :
    ∀ k, j = k + 1 → RowBounded a.length k above →
      RowBounded (a.length + 1) j (rowFrom rows a c left matched j above b) := by
  fun_induction rowFrom rows a c left matched j above b with
  | case1 left matched j diagonal up above d b i row edited entry ih =>
    rintro k rfl ⟨hdiagonal, habove⟩
    -- a replacement costs one at most, and a transposition is only taken if it is no worse
    have hcost : (if c = d then 0 else 1) ≤ 1 := by split <;> omega
    have hedited : edited ≤ diagonal + (if c = d then 0 else 1) := min_le_left _ _
    have hentry : entry ≤ edited := by
      show ite _ _ _ ≤ edited
      split
      · exact le_rfl
      · exact min_le_left _ _
    exact ⟨by omega, ih (k + 1) rfl habove⟩
  | case2 => exact fun _ _ _ => trivial

theorem length_rowFrom_le (rows : List (List Nat)) (a : List Char) (c : Char)
    (left matched j : Nat) (above : List Nat) (b : List Char) :
    (rowFrom rows a c left matched j above b).length ≤ b.length := by
  fun_induction rowFrom rows a c left matched j above b with
  | case1 left matched j diagonal up above d b i row edited entry ih => simpa using ih
  | case2 => exact Nat.zero_le _

/-- Each row adds one character to the first word. -/
theorem rowBounded_lastRow (b rest : List Char) :
    ∀ (above : List Nat) (earlier : List (List Nat)) (a : List Char),
      RowBounded a.length 0 above → above.length ≤ b.length + 1 →
      RowBounded (a.length + rest.length) 0 (lastRow b above earlier a rest) ∧
        (lastRow b above earlier a rest).length ≤ b.length + 1 := by
  induction rest with
  | nil => exact fun _ _ _ habove hlength => ⟨habove, hlength⟩
  | cons c rest ih =>
    intro above earlier a habove hlength
    have hrow := rowBounded_rowFrom (above :: earlier) a c (a.length + 1) 0 1 above b 0 rfl habove
    have hrowLength := length_rowFrom_le (above :: earlier) a c (a.length + 1) 0 1 above b
    have hnext := ih ((a.length + 1) :: rowFrom (above :: earlier) a c (a.length + 1) 0 1 above b)
      (above :: earlier) (a ++ [c])
    rw [List.length_append, List.length_singleton] at hnext
    have hlast := hnext ⟨le_max_left _ 0, hrow⟩ (Nat.succ_le_succ hrowLength)
    rw [lastRow, List.length_cons, Nat.add_comm rest.length, ← Nat.add_assoc]
    exact hlast

/-- **The distance of two words is at most the length of the longer one.** -/
theorem distance_le (a b : List Char) : distance a b ≤ max a.length b.length := by
  have hfirst : RowBounded ([] : List Char).length 0 (List.range (b.length + 1)) := by
    rw [List.range_eq_range']
    exact rowBounded_range' 0 (b.length + 1)
  obtain ⟨hbounded, hlength⟩ :=
    rowBounded_lastRow b a _ [] [] hfirst (le_of_eq List.length_range)
  rw [List.length_nil, Nat.zero_add] at hbounded
  have hall := hbounded.le_of_mem (by omega : 0 + _ ≤ b.length + 1)
  have hlast : distance a b ∈ 0 :: lastRow b (List.range (b.length + 1)) [] [] a :=
    List.getLastD_mem_cons
  rcases List.mem_cons.1 hlast with hzero | hmem
  · exact hzero ▸ Nat.zero_le _
  · exact (hall _ hmem).trans_eq (by rfl)

/-! ## Shares -/

/-- A number between zero and one. -/
def IsShare (x : Float) : Prop :=
  0 ≤ x ∧ x ≤ 1

namespace IsShare

variable {x : Float}

theorem isNaN_eq_false (h : IsShare x) : x.isNaN = false :=
  (isNaN_eq_false_of_le h.2).1

theorem isFinite (h : IsShare x) : x.isFinite = true :=
  isFinite_of_le_of_le (by decide) (by decide) h.1 h.2

theorem exact_nonneg (h : IsShare x) : 0 ≤ exact x :=
  exact_zero ▸ exact_le_of_le (by decide) h.isFinite h.1

theorem exact_le_one (h : IsShare x) : exact x ≤ 1 :=
  exact_one ▸ exact_le_of_le h.isFinite (by decide) h.2

end IsShare

/-- Rounding a value between zero and one gives a share. -/
theorem isShare_of_isRounding {x : Float} {y : Rat} (h : IsRounding x y) (h0 : 0 ≤ y)
    (h1 : y ≤ 1) : IsShare x := by
  have hzero : IsRounding 0 0 := exact_zero ▸ isRounding_exact (by decide)
  have hone : IsRounding 1 1 := exact_one ▸ isRounding_exact (by decide)
  exact ⟨hzero.le h h0, h.le hone h1⟩

/-- The quotient of two counts, the second of which is not less, is a share. -/
theorem isShare_div {d m : Nat} (hle : d ≤ m) (hpos : 0 < m)
    (hm : (Float.ofNat m).isFinite = true) : IsShare (Float.ofNat d / Float.ofNat m) := by
  have hd : (Float.ofNat d).isFinite = true :=
    isFinite_of_le_of_le (by decide : (Float.ofNat 0).isFinite = true) hm
      (ofNat_mono (Nat.zero_le d)) (ofNat_mono hle)
  have hd0 : 0 ≤ exact (Float.ofNat d) :=
    exact_zero ▸ exact_le_of_le (by decide) hd (ofNat_mono (Nat.zero_le d))
  have hm1 : 1 ≤ exact (Float.ofNat m) :=
    exact_one ▸ exact_le_of_le (by decide) hm (ofNat_mono hpos)
  have hmpos : 0 < exact (Float.ofNat m) := lt_of_lt_of_le one_pos hm1
  have hdm : exact (Float.ofNat d) ≤ exact (Float.ofNat m) :=
    exact_le_of_le hd hm (ofNat_mono hle)
  exact isShare_of_isRounding (isRounding_div hd hm hmpos.ne') (div_nonneg hd0 hmpos.le)
    ((div_le_one hmpos).2 hdm)

/-- What is left of a whole is a share. -/
theorem isShare_one_sub {x : Float} (h : IsShare x) : IsShare (1 - x) := by
  have hsub := isRounding_sub (by decide : (1 : Float).isFinite = true) h.isFinite
  rw [exact_one] at hsub
  exact isShare_of_isRounding hsub (sub_nonneg.2 h.exact_le_one) (sub_le_self 1 h.exact_nonneg)

/-- Similarities of words are shares, as long as the lengths of the words do not overflow. -/
theorem isShare_similarity {a b : List Char}
    (h : (Float.ofNat (max a.length b.length)).isFinite = true) : IsShare (similarity a b) := by
  rw [similarity]
  split
  · exact ⟨by decide, by decide⟩
  · next hempty =>
    have hpos : 0 < max a.length b.length := by
      by_contra hzero
      have ha : a = [] := List.eq_nil_of_length_eq_zero (by omega)
      have hb : b = [] := List.eq_nil_of_length_eq_zero (by omega)
      exact hempty (by rw [ha, hb]; rfl)
    exact isShare_one_sub (isShare_div (distance_le a b) hpos h)

/-- Similarities of texts that a machine word can count are shares. -/
theorem isShare_caselessSimilarity {a b : String} (ha : a.toList.length < wordSize)
    (hb : b.toList.length < wordSize) : IsShare (caselessSimilarity similarity a b) := by
  apply isShare_similarity
  rw [List.length_map, List.length_map]
  have hle : max a.toList.length b.toList.length ≤ wordSize - 1 := by omega
  exact isFinite_of_le_of_le (by decide : (Float.ofNat 0).isFinite = true)
    (by decide : (Float.ofNat (wordSize - 1)).isFinite = true) (ofNat_mono (Nat.zero_le _))
    (ofNat_mono hle)

/-! ## The first of the best -/

/-- The entry is the first one of the list with the greatest score. -/
def IsFirstBest {α β : Type} [LT β] [LE β] (score : α → β) (l : List α) (a : α) : Prop :=
  ∃ ahead behind, l = ahead ++ a :: behind ∧ (∀ b ∈ ahead, score b < score a) ∧
    ∀ b ∈ behind, score b ≤ score a

/-- Only entries of the list are kept. -/
theorem firstBest_mem {α β : Type} [LT β] [DecidableLT β] (score : α → β) (best : α)
    (rest : List α) : firstBest score best rest ∈ best :: rest := by
  induction rest generalizing best with
  | nil => exact List.mem_cons_self
  | cons a rest ih =>
    rw [firstBest]
    split
    · exact List.mem_cons_of_mem _ (ih a)
    · rcases List.mem_cons.1 (ih best) with h | h
      · rw [h]
        exact List.mem_cons_self
      · exact List.mem_cons_of_mem _ (List.mem_cons_of_mem _ h)

section Congr

variable {α β γ : Type} {score : α → β} {score' : α → γ} {l : List α}

/-- Scores that compare alike have the same first maximum. -/
theorem isFirstBest_congr [LT β] [LE β] [LT γ] [LE γ] {a : α}
    (hlt : ∀ a ∈ l, ∀ b ∈ l, score a < score b ↔ score' a < score' b)
    (hle : ∀ a ∈ l, ∀ b ∈ l, score a ≤ score b ↔ score' a ≤ score' b) :
    IsFirstBest score l a ↔ IsFirstBest score' l a := by
  refine exists_congr fun ahead => exists_congr fun behind => and_congr_right fun hl => ?_
  subst hl
  have ha : a ∈ ahead ++ a :: behind := by simp
  refine and_congr (forall₂_congr fun b hb => ?_) (forall₂_congr fun b hb => ?_)
  · exact hlt b (List.mem_append_left _ hb) a ha
  · exact hle b (List.mem_append_right _ (List.mem_cons_of_mem _ hb)) a ha

theorem firstBest_congr [LT β] [DecidableLT β] [LT γ] [DecidableLT γ] (best : α) (rest : List α)
    (hlt : ∀ a ∈ best :: rest, ∀ b ∈ best :: rest, score a < score b ↔ score' a < score' b) :
    firstBest score best rest = firstBest score' best rest := by
  induction rest generalizing best with
  | nil => rfl
  | cons a rest ih =>
    have hstep := hlt best List.mem_cons_self a (by simp)
    have ha := ih a fun c hc d hd =>
      hlt c (List.mem_cons_of_mem _ hc) d (List.mem_cons_of_mem _ hd)
    have hbest := ih best fun c hc d hd => by
      refine hlt c ?_ d ?_
      · exact List.cons_subset_cons best (List.subset_cons_self a rest) hc
      · exact List.cons_subset_cons best (List.subset_cons_self a rest) hd
    rw [firstBest, firstBest, ha, hbest]
    simp only [hstep]

end Congr

section LinearOrder

variable {α β : Type} [LinearOrder β] {score : α → β} {l more : List α} {a b : α}

namespace IsFirstBest

theorem mem (h : IsFirstBest score l a) : a ∈ l := by
  obtain ⟨ahead, behind, rfl, -, -⟩ := h
  simp

theorem le (h : IsFirstBest score l a) (hb : b ∈ l) : score b ≤ score a := by
  obtain ⟨ahead, behind, rfl, hahead, hbehind⟩ := h
  rcases List.mem_append.1 hb with hb | hb
  · exact (hahead b hb).le
  · rcases List.mem_cons.1 hb with rfl | hb
    · exact le_rfl
    · exact hbehind b hb

/-- A worse entry can stand ahead of the list. -/
theorem cons (h : IsFirstBest score l a) (hb : score b < score a) :
    IsFirstBest score (b :: l) a := by
  obtain ⟨ahead, behind, rfl, hahead, hbehind⟩ := h
  exact ⟨b :: ahead, behind, rfl, List.forall_mem_cons.2 ⟨hb, hahead⟩, hbehind⟩

/-- An entry that is not better than the head of the list can follow it. -/
theorem insert (h : IsFirstBest score (b :: l) a) {c : α} (hc : score c ≤ score b) :
    IsFirstBest score (b :: c :: l) a := by
  obtain ⟨ahead, behind, hl, hahead, hbehind⟩ := h
  cases ahead with
  | nil =>
    obtain ⟨rfl, rfl⟩ := List.cons.inj hl
    exact ⟨[], c :: l, rfl, nofun, List.forall_mem_cons.2 ⟨hc, hbehind⟩⟩
  | cons d ahead =>
    obtain ⟨rfl, rfl⟩ := List.cons.inj hl
    obtain ⟨hb, hahead⟩ := List.forall_mem_cons.1 hahead
    refine ⟨b :: c :: ahead, behind, rfl, ?_, hbehind⟩
    exact List.forall_mem_cons.2 ⟨hb, List.forall_mem_cons.2 ⟨hc.trans_lt hb, hahead⟩⟩

theorem append (h : IsFirstBest score l a) (hmore : ∀ b ∈ more, score b ≤ score a) :
    IsFirstBest score (l ++ more) a := by
  obtain ⟨ahead, behind, rfl, hahead, hbehind⟩ := h
  refine ⟨ahead, behind ++ more, by simp, hahead, ?_⟩
  exact List.forall_mem_append.2 ⟨hbehind, hmore⟩

/-- There is one first maximum. -/
theorem unique (ha : IsFirstBest score l a) (hb : IsFirstBest score l b) : a = b := by
  have hle := hb.le ha.mem
  have hge := ha.le hb.mem
  obtain ⟨ahead, behind, rfl, hahead, hbehind⟩ := ha
  obtain ⟨ahead', behind', hl, hahead', hbehind'⟩ := hb
  rcases List.append_eq_append_iff.1 hl with ⟨gap, rfl, hgap⟩ | ⟨gap, rfl, hgap⟩
  · cases gap with
    | nil => exact (List.cons.inj hgap).1
    | cons c gap =>
      obtain ⟨rfl, -⟩ := List.cons.inj hgap
      exact absurd hge (not_le.2 (hahead' a (by simp)))
  · cases gap with
    | nil => exact (List.cons.inj hgap).1.symm
    | cons c gap =>
      obtain ⟨rfl, -⟩ := List.cons.inj hgap
      exact absurd hle (not_le.2 (hahead b (by simp)))

end IsFirstBest

/-- **The scan finds the first maximum.** -/
theorem isFirstBest_firstBest (score : α → β) (best : α) (rest : List α) :
    IsFirstBest score (best :: rest) (firstBest score best rest) := by
  induction rest generalizing best with
  | nil => exact ⟨[], [], rfl, nofun, nofun⟩
  | cons a rest ih =>
    rw [firstBest]
    split
    · next hlt => exact (ih a).cons (hlt.trans_le ((ih a).le List.mem_cons_self))
    · next hle => exact (ih best).insert (not_lt.1 hle)

end LinearOrder

/-! ## Defined scores -/

/-- No score of an entry of the list is undefined. -/
def Defined {α : Type} (score : α → Float) (l : List α) : Prop :=
  ∀ a ∈ l, (score a).isNaN = false

namespace Defined

variable {α : Type} {score : α → Float} {l rest more : List α} {a b best : α}

/-- Scores that are defined have the first maximum of their exact values. -/
theorem isFirstBest_exact_iff (h : Defined score l) :
    IsFirstBest score l a ↔ IsFirstBest (fun a => exact (score a)) l a :=
  isFirstBest_congr (fun a ha b hb => lt_iff_exact_lt (h a ha) (h b hb))
    (fun a ha b hb => le_iff_exact_le (h a ha) (h b hb))

theorem isFirstBest_firstBest (h : Defined score (best :: rest)) :
    IsFirstBest score (best :: rest) (firstBest score best rest) := by
  have hexact : firstBest score best rest = firstBest (fun a => exact (score a)) best rest :=
    firstBest_congr best rest fun a ha b hb => lt_iff_exact_lt (h a ha) (h b hb)
  rw [h.isFirstBest_exact_iff, hexact]
  exact Text.isFirstBest_firstBest _ best rest

theorem unique (h : Defined score l) (ha : IsFirstBest score l a) (hb : IsFirstBest score l b) :
    a = b :=
  (h.isFirstBest_exact_iff.1 ha).unique (h.isFirstBest_exact_iff.1 hb)

theorem le (h : Defined score l) (ha : IsFirstBest score l a) (hb : b ∈ l) :
    score b ≤ score a := by
  have hexact := h.isFirstBest_exact_iff.1 ha
  exact (le_iff_exact_le (h b hb) (h a hexact.mem)).2 (hexact.le hb)

/-- What compares with a score is defined. -/
theorem append (h : Defined score l) (hmore : ∀ b ∈ more, ∃ a ∈ l, score b ≤ score a) :
    Defined score (l ++ more) := by
  refine List.forall_mem_append.2 ⟨h, fun b hb => ?_⟩
  obtain ⟨a, -, hle⟩ := hmore b hb
  exact (isNaN_eq_false_of_le hle).1

/-- Entries that are not better than some entry of the list can follow the list. -/
theorem firstBest_append (h : Defined score (best :: rest))
    (hmore : ∀ b ∈ more, ∃ a ∈ best :: rest, score b ≤ score a) :
    firstBest score best (rest ++ more) = firstBest score best rest := by
  have hall : Defined score (best :: (rest ++ more)) := h.append hmore
  have hbest := h.isFirstBest_exact_iff.1 h.isFirstBest_firstBest
  have hrest : ∀ b ∈ more, exact (score b) ≤ exact (score (firstBest score best rest)) := by
    intro b hb
    obtain ⟨a, ha, hle⟩ := hmore b hb
    rw [le_iff_exact_le (isNaN_eq_false_of_le hle).1 (h a ha)] at hle
    exact hle.trans (hbest.le ha)
  exact hall.unique hall.isFirstBest_firstBest
    (hall.isFirstBest_exact_iff.2 (hbest.append hrest))

end Defined

/-! ## The closest candidate -/

section Closest

variable {measure : Measure} {text : String} {candidates more : List String}

/-- Only a candidate is proposed. -/
theorem mem_of_closest? {c : String}
    (h : closest? measure text candidates = some c) : c ∈ candidates := by
  cases candidates with
  | nil => cases h
  | cons candidate rest =>
    rw [closest?] at h
    split at h
    · obtain rfl := Option.some.inj h
      exact firstBest_mem _ candidate rest
    · cases h

theorem closest?_cons_eq_some_iff {candidate c : String} {rest : List String} :
    closest? measure text (candidate :: rest) = some c ↔
      firstBest (caselessSimilarity measure text) candidate rest = c ∧
        leastSimilarity < caselessSimilarity measure text c := by
  rw [closest?]
  split
  · next hlt =>
    rw [Option.some.injEq]
    exact ⟨fun h => ⟨h, h ▸ hlt⟩, And.left⟩
  · next hle => exact ⟨nofun, fun ⟨hbest, hlt⟩ => absurd (hbest ▸ hlt) hle⟩

theorem closest?_cons_eq_none_iff {candidate : String} {rest : List String} :
    closest? measure text (candidate :: rest) = none ↔ ¬ leastSimilarity <
      caselessSimilarity measure text
        (firstBest (caselessSimilarity measure text) candidate rest) := by
  rw [closest?]
  split
  · next hlt => exact iff_of_false nofun (not_not_intro hlt)
  · next hle => exact iff_of_true rfl hle

/-- The candidate that is proposed is the first of the most similar ones. -/
theorem Defined.closest?_eq_some_iff (h : Defined (caselessSimilarity measure text) candidates)
    {c : String} :
    closest? measure text candidates = some c ↔
      IsFirstBest (caselessSimilarity measure text) candidates c ∧
        leastSimilarity < caselessSimilarity measure text c := by
  cases candidates with
  | nil =>
    refine iff_of_false nofun ?_
    rintro ⟨⟨ahead, behind, hnil, -⟩, -⟩
    simp at hnil
  | cons candidate rest =>
    rw [closest?_cons_eq_some_iff]
    refine and_congr_left fun _ => ⟨?_, h.unique h.isFirstBest_firstBest⟩
    rintro rfl
    exact h.isFirstBest_firstBest

/-- No candidate is proposed exactly if none is similar enough. -/
theorem Defined.closest?_eq_none_iff (h : Defined (caselessSimilarity measure text) candidates) :
    closest? measure text candidates = none ↔
      ∀ c ∈ candidates, caselessSimilarity measure text c ≤ leastSimilarity := by
  cases candidates with
  | nil => exact iff_of_true rfl nofun
  | cons candidate rest =>
    have hleast : leastSimilarity.isNaN = false := by decide
    have hmem := firstBest_mem (caselessSimilarity measure text) candidate rest
    rw [closest?_cons_eq_none_iff, lt_iff_exact_lt hleast (h _ hmem), not_lt,
      ← le_iff_exact_le (h _ hmem) hleast]
    constructor
    · intro hbest c hc
      have hle := h.le h.isFirstBest_firstBest hc
      rw [le_iff_exact_le (h c hc) (h _ hmem)] at hle
      rw [le_iff_exact_le (h _ hmem) hleast] at hbest
      exact (le_iff_exact_le (h c hc) hleast).2 (hle.trans hbest)
    · intro hall
      exact hall _ hmem

/-- Candidates that are no more similar than one of the list change nothing behind it. -/
theorem Defined.closest?_append (h : Defined (caselessSimilarity measure text) candidates)
    (hmore : ∀ a ∈ more, ∃ c ∈ candidates,
      caselessSimilarity measure text a ≤ caselessSimilarity measure text c) :
    closest? measure text (candidates ++ more) = closest? measure text candidates := by
  cases candidates with
  | nil =>
    cases more with
    | nil => rfl
    | cons a more =>
      obtain ⟨c, hc, -⟩ := hmore a List.mem_cons_self
      exact absurd hc List.not_mem_nil
  | cons candidate rest =>
    rw [List.cons_append, closest?, closest?, h.firstBest_append hmore]

/-- The case of ASCII letters makes no difference. -/
theorem closest?_congr {text' : String}
    (h : text'.toList.map Char.toLower = text.toList.map Char.toLower) :
    closest? measure text' candidates = closest? measure text candidates := by
  have hsimilarity : caselessSimilarity measure text' = caselessSimilarity measure text := by
    funext c
    rw [caselessSimilarity, caselessSimilarity, h]
  cases candidates with
  | nil => rfl
  | cons candidate rest => rw [closest?, closest?, hsimilarity]

/-- **The closest candidate.** Whatever measure is used, if the similarities of a text and the
candidates are shares, then a candidate is proposed exactly if it is the first one with the greatest
similarity and this similarity is large enough, and none is proposed exactly if no similarity is.
The case of ASCII letters in the text makes no difference, and neither do candidates at the end of
the list that are no more similar than one ahead of them. -/
theorem closest?_firstBest (measure : Measure) (text : String) (candidates : List String)
    (hshares : ∀ c ∈ candidates, IsShare (caselessSimilarity measure text c)) :
    (∀ c, closest? measure text candidates = some c ↔
      IsFirstBest (caselessSimilarity measure text) candidates c ∧
        leastSimilarity < caselessSimilarity measure text c) ∧
    (closest? measure text candidates = none ↔
      ∀ c ∈ candidates, caselessSimilarity measure text c ≤ leastSimilarity) ∧
    (∀ text' : String, text'.toList.map Char.toLower = text.toList.map Char.toLower →
      closest? measure text' candidates = closest? measure text candidates) ∧
    ∀ more, (∀ a ∈ more, ∃ c ∈ candidates,
        caselessSimilarity measure text a ≤ caselessSimilarity measure text c) →
      closest? measure text (candidates ++ more) = closest? measure text candidates := by
  have hdefined : Defined (caselessSimilarity measure text) candidates :=
    fun c hc => (hshares c hc).isNaN_eq_false
  exact ⟨fun c => hdefined.closest?_eq_some_iff, hdefined.closest?_eq_none_iff,
    fun text' htext => closest?_congr htext, fun more hmore => hdefined.closest?_append hmore⟩

/-- Of two candidates that are equally similar the first one is proposed, in its own case. -/
theorem closest?_firstBest_tie :
    ∃ candidates, candidates = ["quit", "Plot", "plot", "points"] ∧
      (∀ c ∈ candidates, IsShare (caselessSimilarity similarity "plto" c)) ∧
      IsFirstBest (caselessSimilarity similarity "plto") candidates "Plot" ∧
      closest? similarity "PLTO" candidates = some "Plot" ∧
      closest? similarity "plto" (candidates ++ ["PLOT"]) = some "Plot" := by
  have hshares : ∀ c ∈ ["quit", "Plot", "plot", "points"],
      IsShare (caselessSimilarity similarity "plto" c) := by
    intro c hc
    have hshort : ∀ c ∈ ["quit", "Plot", "plot", "points"], c.toList.length ≤ 6 := by decide
    exact isShare_caselessSimilarity (by decide) ((hshort c hc).trans_lt (by decide))
  obtain ⟨hsome, -, hcase, happend⟩ := closest?_firstBest similarity "plto" _ hshares
  have hplot : closest? similarity "plto" ["quit", "Plot", "plot", "points"] = some "Plot" := by
    decide +kernel
  refine ⟨_, rfl, hshares, ((hsome "Plot").1 hplot).1, ?_, ?_⟩
  · rw [hcase "PLTO" (by decide), hplot]
  · have hmore : ∀ a ∈ ["PLOT"], ∃ c ∈ ["quit", "Plot", "plot", "points"],
        caselessSimilarity similarity "plto" a ≤ caselessSimilarity similarity "plto" c := by
      intro a ha
      obtain rfl := List.mem_singleton.1 ha
      exact ⟨"Plot", by decide, by decide +kernel⟩
    rw [happend ["PLOT"] hmore, hplot]

end Closest

end PlotSheet.Text
