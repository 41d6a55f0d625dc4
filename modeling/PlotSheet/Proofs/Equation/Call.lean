import PlotSheet.Equation.Parametric
import PlotSheet.Proofs.Equation.Term

/-!
# Calls in a text

A call is a name and an opening parenthesis. All names are of one length, so that at most one of them
is called at a place, and the count of all calls is the count of the places. It is one exactly if
there is a call and no other one; then the search finds that call.

## Main definitions

* `IsOnlyCall`: a call that stands in a text without another one

## Main results

* `callCount_eq_one_iff`: the texts with exactly one call
* `onlyCall?_of_isOnlyCall`, `onlyCall?_eq_none_iff`: the only call of a text is found
* `IsOnlyCall.of_not_mem`: a text with one parenthesis behind a name
* `readCoordinate_of_onlyCall?`: what is read around the only call of a coordinate
-/

namespace PlotSheet

namespace Text

/-- What occurs in a text is found. -/
theorem find?_isSome (l r : List Char) {pattern : List Char} (hne : pattern ≠ []) :
    (find? pattern (l ++ pattern ++ r)).isSome = true := by
  induction l with
  | nil =>
    obtain ⟨c, rest, rfl⟩ := List.exists_cons_of_ne_nil hne
    have hpre : (c :: rest).isPrefixOf (c :: (rest ++ r)) = true :=
      List.isPrefixOf_iff_prefix.2 ⟨r, rfl⟩
    rw [List.nil_append, List.cons_append, find?, if_pos hpre]
    rfl
  | cons d l ih =>
    rw [List.cons_append, List.cons_append, find?]
    split
    · rfl
    · rw [Option.isSome_map]
      exact ih

variable {c : Char} {name u b : List Char}

/-- The text before the first `c` is determined. -/
theorem append_cons_inj (hname : c ∉ name) (hu : c ∉ u) {r : List Char}
    (h : name ++ c :: r = u ++ c :: b) : name = u := by
  have htake : ∀ (l r : List Char), c ∉ l → (l ++ c :: r).takeWhile (· != c) = l := by
    intro l r hl
    have hall : ∀ d ∈ l, (d != c) = true := by
      intro d hd
      rw [bne_iff_ne]
      rintro rfl
      exact hl hd
    rw [List.takeWhile_append_of_pos hall]
    simp
  rw [← htake name r hname, h, htake u b hu]

theorem not_mem_of_only (hu : c ∉ u) (hb : c ∉ b) {r : List Char}
    (h : u ++ c :: b = name ++ c :: r) : c ∉ name := by
  have hcount := congrArg (List.count c) h
  rw [List.count_append, List.count_append, List.count_cons_self, List.count_cons_self,
    List.count_eq_zero.2 hu, List.count_eq_zero.2 hb] at hcount
  rw [← List.count_eq_zero]
  omega

end Text

namespace Equation

open PlotSheet.Span Text

theorem length_name (f : TrigFunction) : f.name.toList.length = 3 := by
  cases f <;> rfl

theorem not_mem_name (f : TrigFunction) : '(' ∉ f.name.toList := by
  cases f <;> decide

theorem name_suffix_iff (f g : TrigFunction) (a : List Char) :
    g.name.toList <:+ a ++ f.name.toList ↔ g = f := by
  constructor
  · intro h
    have hself := List.suffix_append a f.name.toList
    have hlength : g.name.toList.length = f.name.toList.length := by
      rw [length_name, length_name]
    have heq := (List.suffix_of_suffix_length_le h hself (Nat.le_of_eq hlength)).eq_of_length hlength
    revert heq
    cases f <;> cases g <;> decide
  · rintro rfl
    exact List.suffix_append ..

/-! ## Places of calls -/

/-- A call of `f` stands in the text, `l` ahead of it and `r` behind it, and there is no other
call. -/
structure IsOnlyCall (text : List Char) (f : TrigFunction) (l r : List Char) : Prop where
  text_eq : text = l ++ callPattern f ++ r
  unique : ∀ g l' r', text = l' ++ callPattern g ++ r' → g = f ∧ l' = l

theorem length_callPattern (f : TrigFunction) : (callPattern f).length = 4 := by
  cases f <;> rfl

theorem callPattern_ne_nil (f : TrigFunction) : callPattern f ≠ [] :=
  List.ne_nil_of_length_pos (by rw [length_callPattern]; decide)

/-- At most one function is called at a place. -/
theorem eq_of_callPattern_prefixes {f g : TrigFunction} {text : List Char}
    (hf : callPattern f <+: text) (hg : callPattern g <+: text) : g = f := by
  have hlength : (callPattern g).length = (callPattern f).length := by
    rw [length_callPattern, length_callPattern]
  have heq := (List.prefix_of_prefix_length_le hg hf (Nat.le_of_eq hlength)).eq_of_length hlength
  revert heq
  cases f <;> cases g <;> decide

/-- A call stands right at the start of a text, or behind its first character. -/
theorem cons_eq_call_iff {c : Char} {text l r : List Char} {f : TrigFunction} :
    c :: text = l ++ callPattern f ++ r ↔
      l = [] ∧ c :: text = callPattern f ++ r ∨
        ∃ l', l = c :: l' ∧ text = l' ++ callPattern f ++ r := by
  cases l with
  | nil => simp
  | cons d l => simp [eq_comm, and_assoc]

theorem callCount_cons (c : Char) (text : List Char) [Decidable (∃ f, callPattern f <+: c :: text)] :
    callCount (c :: text) =
      (if ∃ f, callPattern f <+: c :: text then 1 else 0) + callCount text := by
  simp only [callCount, TrigFunction.all, occurrences, List.foldr_cons, List.foldr_nil,
    List.isPrefixOf_iff_prefix]
  by_cases h : ∃ f, callPattern f <+: c :: text
  · rw [if_pos h]
    obtain ⟨f, hf⟩ := h
    have hiff (g : TrigFunction) : callPattern g <+: c :: text ↔ g = f :=
      ⟨eq_of_callPattern_prefixes hf, fun h => h ▸ hf⟩
    simp only [hiff]
    cases f <;> simp <;> omega
  · rw [if_neg h]
    simp [not_exists.1 h]

theorem callCount_eq_zero_iff {text : List Char} :
    callCount text = 0 ↔ ∀ f l r, text ≠ l ++ callPattern f ++ r := by
  classical
  induction text with
  | nil => simp [callCount, TrigFunction.all, occurrences, callPattern_ne_nil]
  | cons c text ih =>
    rw [callCount_cons, Nat.add_eq_zero_iff, ih]
    constructor
    · rintro ⟨hhead, htail⟩ f l r h
      rcases cons_eq_call_iff.1 h with ⟨-, h⟩ | ⟨l', -, h⟩
      · rw [if_pos ⟨f, r, h.symm⟩] at hhead
        cases hhead
      · exact htail f l' r h
    · intro h
      constructor
      · refine if_neg ?_
        rintro ⟨f, r, hr⟩
        exact h f [] r (by simpa using hr.symm)
      · intro f l r htext
        exact h f (c :: l) r (by simp [htext])

/-- The count of calls is one exactly if there is one call and no other. -/
theorem callCount_eq_one_iff {text : List Char} :
    callCount text = 1 ↔ ∃ f l r, IsOnlyCall text f l r := by
  classical
  -- induction on the text: the only call is at its start, or it is the only one behind `c`
  induction text with
  | nil =>
    refine iff_of_false (by decide) ?_
    rintro ⟨f, l, r, h⟩
    have := h.text_eq
    simp [callPattern_ne_nil] at this
  | cons c text ih =>
    rw [callCount_cons]
    by_cases hhead : ∃ f, callPattern f <+: c :: text
    · obtain ⟨f, r, hr⟩ := id hhead
      have hiff : 1 + callCount text = 1 ↔ callCount text = 0 := by omega
      rw [if_pos hhead, hiff, callCount_eq_zero_iff]
      constructor
      · intro hnone
        refine ⟨f, [], r, by simpa using hr.symm, fun g l' r' h => ?_⟩
        rcases cons_eq_call_iff.1 h with ⟨rfl, h⟩ | ⟨l', -, h⟩
        · exact ⟨eq_of_callPattern_prefixes ⟨r, hr⟩ ⟨r', h.symm⟩, rfl⟩
        · exact absurd h (hnone g l' r')
      · rintro ⟨g, l, r', h⟩ k l' s htext
        have hstart := (h.unique f [] r (by simpa using hr.symm)).2
        have hbehind := (h.unique k (c :: l') s (by simp [htext])).2
        rw [← hstart] at hbehind
        cases hbehind
    · rw [if_neg hhead, Nat.zero_add, ih]
      have hbehind {f : TrigFunction} {l r : List Char} (h : c :: text = l ++ callPattern f ++ r) :
          ∃ l', l = c :: l' ∧ text = l' ++ callPattern f ++ r :=
        (cons_eq_call_iff.1 h).resolve_left fun h => hhead ⟨f, r, h.2.symm⟩
      constructor
      · rintro ⟨f, l, r, h⟩
        refine ⟨f, c :: l, r, by simp [h.text_eq], fun g l' r' htext => ?_⟩
        obtain ⟨l'', rfl, htext'⟩ := hbehind htext
        obtain ⟨rfl, rfl⟩ := h.unique g l'' r' htext'
        exact ⟨rfl, rfl⟩
      · rintro ⟨f, l, r, h⟩
        obtain ⟨l, rfl, htext⟩ := hbehind h.text_eq
        refine ⟨f, l, r, htext, fun g l' r' htext' => ?_⟩
        obtain ⟨rfl, hl⟩ := h.unique g (c :: l') r' (by simp [htext'])
        exact ⟨rfl, List.tail_eq_of_cons_eq hl⟩

/-! ## The only call of a text -/

/-- The only call of a text stands in it at its offset. -/
theorem exists_of_onlyCall? {text : List Char} {f : TrigFunction} {i : Nat}
    (h : onlyCall? text = some (f, i)) :
    ∃ l r, text = l ++ callPattern f ++ r ∧ byteLength l = i := by
  rw [onlyCall?] at h
  split at h
  · obtain ⟨g, -, hg⟩ := List.exists_of_findSome?_eq_some h
    obtain ⟨j, hj, heq⟩ := Option.map_eq_some_iff.1 hg
    obtain ⟨rfl, rfl⟩ := Prod.mk.inj heq
    exact exists_of_find?_eq_some hj
  · cases h

theorem firstCall?_ne_none (l r : List Char) (f : TrigFunction) :
    firstCall? (l ++ callPattern f ++ r) ≠ none := by
  intro h
  have hnone := List.findSome?_eq_none_iff.1 h f (TrigFunction.mem_all f)
  rw [Option.map_eq_none_iff] at hnone
  have hsome := find?_isSome l r (callPattern_ne_nil f)
  rw [hnone] at hsome
  cases hsome

variable {text : List Char}

/-- The only call of a text is found. -/
theorem onlyCall?_of_isOnlyCall {f : TrigFunction} {l r : List Char} (h : IsOnlyCall text f l r) :
    onlyCall? text = some (f, byteLength l) := by
  have hone : onlyCall? text = firstCall? text := if_pos (callCount_eq_one_iff.2 ⟨f, l, r, h⟩)
  cases hfirst : firstCall? text with
  | none => exact absurd (h.text_eq ▸ hfirst) (firstCall?_ne_none l r f)
  | some call =>
    obtain ⟨g, i⟩ := call
    rw [hfirst] at hone
    obtain ⟨l', r', htext, rfl⟩ := exists_of_onlyCall? hone
    obtain ⟨rfl, rfl⟩ := h.unique g l' r' htext
    exact hone

/-- Without a call, or with several, none is the only one. -/
theorem onlyCall?_eq_none_iff : onlyCall? text = none ↔ ¬ ∃ f l r, IsOnlyCall text f l r := by
  constructor
  · rintro h ⟨f, l, r, hcall⟩
    rw [onlyCall?_of_isOnlyCall hcall] at h
    cases h
  · intro h
    exact if_neg (mt callCount_eq_one_iff.1 h)

/-- A name before the only parenthesis of a text is its only call. -/
theorem IsOnlyCall.of_not_mem (f : TrigFunction) {a b : List Char} (ha : '(' ∉ a) (hb : '(' ∉ b) :
    IsOnlyCall (a ++ callPattern f ++ b) f a b := by
  have hmarked : ∀ g l r, l ++ callPattern g ++ r = (l ++ g.name.toList) ++ '(' :: r := by
    simp [callPattern]
  have hbefore : '(' ∉ a ++ f.name.toList := by
    rw [List.mem_append]
    rintro (h | h)
    · exact ha h
    · exact not_mem_name f h
  refine ⟨rfl, fun g l r htext => ?_⟩
  rw [hmarked, hmarked] at htext
  have hends := append_cons_inj (not_mem_of_only hbefore hb htext) hbefore htext.symm
  obtain rfl := (name_suffix_iff f g a).1 (hends ▸ List.suffix_append ..)
  exact ⟨rfl, List.append_cancel_right hends⟩

/-! ## Coordinates -/

variable {α : Type} [Scalar α]

/-- The only call of a coordinate cuts it into the outer factor and the argument. -/
theorem readCoordinate_of_onlyCall? (before after : List Char) {l r : List Char}
    {f : TrigFunction} (h : onlyCall? (l ++ callPattern f ++ r) = some (f, byteLength l)) :
    readCoordinate (α := α) (between before (l ++ callPattern f ++ r) after) = (do
      let some inner ← (between (before ++ l ++ callPattern f) r after).dropSuffix? ['t', ')']
        | blame (.form .argument) (between (before ++ l ++ callPattern f) r after)
      let outerFactor ← readFactor .number (between before l (callPattern f ++ r ++ after))
      let innerFactor ← readInner inner
      return ⟨f, Scalar.ofLiteral outerFactor, Scalar.ofLiteral innerFactor⟩) := by
  rw [readCoordinate, text_between, lift_ok, ok_bind, h]
  dsimp only
  rw [List.append_assoc l, splitAt_between, lift_ok, ok_bind]
  dsimp only
  rewrite [length_between, upTo_length_between, lift_ok, ok_bind]
  rfl

end Equation

end PlotSheet
