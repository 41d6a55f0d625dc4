import PlotSheet.Equation.Parametric
import PlotSheet.Proofs.Equation.Term

/-!
# The grammar of ranges

A range is a lower bound, the parameter and an upper bound between two less-than signs. A bound is a
literal or the product of two, in the text with its pis spelt out. Every other text has one fault:
the form of the range, the name of the parameter, the lower bound, the upper bound and the order of
the bounds are looked at in turn.

## Main definitions

* `SpellsProduct`, `SpellsBound`, `SpellsRange`: the grammar of ranges, with what they say
* `ProductFault`, `BoundFault`, `RangeFault`: what is wrong with a text that is none, and where

## Main results

* `readBound_eq_ok_iff`: the bounds that are read
* `spellsRange_or_rangeFault`: every text is a range or has a fault
* `readRange_of_spellsRange`, `readRange_of_rangeFault`: reading gives the one or blames the other
-/

namespace PlotSheet.Equation

open Text PlotSheet.Span

variable {α : Type} [Scalar α]

/-- The text spells a literal or the product of exactly two. -/
inductive SpellsProduct : List Char → α → Prop
  | literal {text : List Char} {l : Literal} :
    Literal.read text = .ok l → SpellsProduct text (Scalar.ofLiteral l)
  | product {left right : List Char} {l r : Literal} :
    Literal.read left = .ok l → Literal.read right = .ok r →
    SpellsProduct (left ++ '*' :: right) (Scalar.ofLiteral l * Scalar.ofLiteral r)

/-- The text spells a bound. -/
def SpellsBound (text : List Char) (v : α) : Prop :=
  SpellsProduct (spellPi text) v

/-- The text spells a range with the given ends. -/
inductive SpellsRange : List Char → α → α → Prop
  | bounds {text lower upper : List Char} {start stop : α} :
    ThreeParts '<' text lower ['t'] upper → SpellsBound lower start → SpellsBound upper stop →
    ¬ stop ≤ start → SpellsRange text start stop

/-- The fault of a text that is no product, with the part of `before ++ text ++ after` that shows
it. -/
inductive ProductFault (before after : List Char) : List Char → ParseError → Prop
  | literal {text : List Char} {e : LiteralError} :
    '*' ∉ text → Literal.read text = .error e →
    ProductFault before after text ⟨.number e, between before text after⟩
  | left {left right : List Char} {e : LiteralError} :
    '*' ∉ left → '*' ∉ right → Literal.read left = .error e →
    ProductFault before after (left ++ '*' :: right)
      ⟨.number e, between before left ('*' :: right ++ after)⟩
  | right {left right : List Char} {l : Literal} {e : LiteralError} :
    Literal.read left = .ok l → '*' ∉ right → Literal.read right = .error e →
    ProductFault before after (left ++ '*' :: right)
      ⟨.number e, between (before ++ left ++ ['*']) right after⟩
  | product {text : List Char} :
    2 ≤ text.count '*' →
    ProductFault before after text ⟨.range .product, between before text after⟩

/-- The fault of a text that is no bound. With pis in it the whole bound is blamed. -/
inductive BoundFault (before after : List Char) : List Char → ParseError → Prop
  | plain {text : List Char} {e : ParseError} :
    spellPi text = text → ProductFault before after text e → BoundFault before after text e
  | spelt {text : List Char} {e : ParseError} :
    spellPi text ≠ text → ProductFault [] [] (spellPi text) e →
    BoundFault before after text ⟨e.cause, between before text after⟩

/-- The fault of a text that is no range, with the part of `before ++ text ++ after` that shows
it. -/
inductive RangeFault (α : Type) [Scalar α] (before after : List Char) :
    List Char → ParseError → Prop
  | form {text : List Char} :
    text.count '<' ≠ 2 → RangeFault α before after text ⟨.range .form, between before text after⟩
  | parameter {text lower parameter upper : List Char} :
    ThreeParts '<' text lower parameter upper → parameter ≠ ['t'] →
    RangeFault α before after text
      ⟨.range .parameter, between (before ++ lower ++ ['<']) parameter ('<' :: upper ++ after)⟩
  | lower {text lower upper : List Char} {e : ParseError} :
    ThreeParts '<' text lower ['t'] upper →
    BoundFault before ('<' :: ['t'] ++ '<' :: upper ++ after) lower e →
    RangeFault α before after text e
  | upper {text lower upper : List Char} {start : α} {e : ParseError} :
    ThreeParts '<' text lower ['t'] upper → SpellsBound lower start →
    BoundFault (before ++ lower ++ ['<'] ++ ['t'] ++ ['<']) after upper e →
    RangeFault α before after text e
  | order {text lower upper : List Char} {start stop : α} :
    ThreeParts '<' text lower ['t'] upper → SpellsBound lower start → SpellsBound upper stop →
    stop ≤ start → RangeFault α before after text ⟨.range .order, between before text after⟩

/-! ## Products -/

theorem not_mem_of_read_eq_ok {text : List Char} {l : Literal} (h : Literal.read text = .ok l) :
    '*' ∉ text := by
  intro hmem
  exact absurd (Literal.isCharacter_of_mem h '*' hmem) (by decide)

variable (before after : List Char) {text : List Char}

theorem readProduct_of_not_mem (h : '*' ∉ text) :
    readProduct (α := α) (between before text after) = (do
      return Scalar.ofLiteral (← readLiteral .number (between before text after))) := by
  rw [readProduct, splitOn_between_of_not_mem h, lift_ok, ok_bind]

theorem readProduct_of_append_cons {left right : List Char} (hleft : '*' ∉ left)
    (hright : '*' ∉ right) :
    readProduct (α := α) (between before (left ++ '*' :: right) after) = (do
      let l ← readLiteral .number (between before left ('*' :: right ++ after))
      let r ← readLiteral .number (between (before ++ left ++ ['*']) right after)
      return Scalar.ofLiteral l * Scalar.ofLiteral r) := by
  rw [readProduct, splitOn_between_append_cons hleft hright, lift_ok, ok_bind]

/-- A product is read as its value. -/
theorem readProduct_of_spellsProduct {v : α} (h : SpellsProduct text v) :
    readProduct (between before text after) = .ok v := by
  cases h with
  | literal h =>
    rw [readProduct_of_not_mem _ _ (not_mem_of_read_eq_ok h), readLiteral_of_ok _ _ _ h]
    rfl
  | product hl hr =>
    rw [readProduct_of_append_cons _ _ (not_mem_of_read_eq_ok hl) (not_mem_of_read_eq_ok hr),
      readLiteral_of_ok _ _ _ hl, ok_bind, readLiteral_of_ok _ _ _ hr, ok_bind]
    rfl

/-- Reading a text that is no product fails with its fault. -/
theorem readProduct_of_productFault {e : ParseError} (h : ProductFault before after text e) :
    readProduct (α := α) (between before text after) = .error (.invalid e) := by
  cases h with
  | literal hstar h =>
    rw [readProduct_of_not_mem _ _ hstar, readLiteral_of_error _ _ _ h]
    rfl
  | left hleft hright h =>
    rw [readProduct_of_append_cons _ _ hleft hright, readLiteral_of_error _ _ _ h]
    rfl
  | right hl hright h =>
    rw [readProduct_of_append_cons _ _ (not_mem_of_read_eq_ok hl) hright,
      readLiteral_of_ok _ _ _ hl, ok_bind, readLiteral_of_error _ _ _ h]
    rfl
  | product hcount =>
    obtain ⟨parts, hparts, hlength⟩ := exists_splitOn_between before text after '*'
    rw [readProduct, hparts, lift_ok, ok_bind]
    split
    · simp at hlength
      omega
    · simp at hlength
      omega
    · rfl

/-- Every text is a product or has a fault wherever it stands. -/
theorem spellsProduct_or_productFault (α : Type) [Scalar α] (text : List Char) :
    (∃ v : α, SpellsProduct text v) ∨ ∃ e, ProductFault before after text e := by
  by_cases hstar : '*' ∈ text
  · obtain ⟨left, right, rfl, hleft⟩ := List.eq_append_cons_of_mem hstar
    by_cases hright : '*' ∈ right
    · refine .inr ⟨_, .product ?_⟩
      have := List.count_pos_iff.2 hright
      rw [List.count_append, List.count_cons_self]
      omega
    · cases hl : Literal.read left with
      | error e => exact .inr ⟨_, .left hleft hright hl⟩
      | ok l =>
        cases hr : Literal.read right with
        | error e => exact .inr ⟨_, .right hl hright hr⟩
        | ok r => exact .inl ⟨_, .product hl hr⟩
  · cases h : Literal.read text with
    | error e => exact .inr ⟨_, .literal hstar h⟩
    | ok l => exact .inl ⟨_, .literal h⟩

/-! ## Bounds -/

/-- The text is read as it is if there is no pi in it, and else the spelt-out one as a text of its
own. -/
theorem readBound_between :
    readBound (α := α) (between before text after) =
      if spellPi text = text then readProduct (between before text after)
      else relocate (between before text after) (readProduct (between [] (spellPi text) [])) := by
  rw [readBound, text_between, lift_ok, ok_bind, ← whole_eq_between]

/-- A bound is read as its value. -/
theorem readBound_of_spellsBound {v : α} (h : SpellsBound text v) :
    readBound (between before text after) = .ok v := by
  rw [readBound_between]
  unfold SpellsBound at h
  split
  · next hself =>
    rw [hself] at h
    exact readProduct_of_spellsProduct before after h
  · rw [readProduct_of_spellsProduct [] [] h]
    rfl

/-- Reading a text that is no bound fails with its fault. -/
theorem readBound_of_boundFault {e : ParseError} (h : BoundFault before after text e) :
    readBound (α := α) (between before text after) = .error (.invalid e) := by
  rw [readBound_between]
  cases h with
  | plain hself h => rw [if_pos hself, readProduct_of_productFault _ _ h]
  | spelt hself h =>
    rw [if_neg hself, readProduct_of_productFault _ _ h]
    rfl

theorem spellsBound_or_boundFault (α : Type) [Scalar α] (text : List Char) :
    (∃ v : α, SpellsBound text v) ∨ ∃ e, BoundFault before after text e := by
  unfold SpellsBound
  by_cases hself : spellPi text = text
  · rcases spellsProduct_or_productFault before after α text with h | ⟨e, he⟩
    · exact .inl (hself.symm ▸ h)
    · exact .inr ⟨e, .plain hself he⟩
  · rcases spellsProduct_or_productFault [] [] α (spellPi text) with h | ⟨e, he⟩
    · exact .inl h
    · exact .inr ⟨_, .spelt hself he⟩

theorem readBound_eq_ok_iff {v : α} :
    readBound (between before text after) = .ok v ↔ SpellsBound text v := by
  constructor
  · intro h
    rcases spellsBound_or_boundFault before after α text with ⟨w, hw⟩ | ⟨e, he⟩
    · rw [readBound_of_spellsBound before after hw] at h
      exact Except.ok.inj h ▸ hw
    · rw [readBound_of_boundFault before after he] at h
      cases h
  · exact readBound_of_spellsBound before after

/-! ## Ranges -/

theorem readRange_of_threeParts {lower parameter upper : List Char}
    (h : ThreeParts '<' text lower parameter upper) :
    readRange (α := α) (between before text after) =
      if parameter ≠ ['t'] then
        blame (.range .parameter)
          (between (before ++ lower ++ ['<']) parameter ('<' :: upper ++ after))
      else do
        let start ← readBound (between before lower ('<' :: parameter ++ '<' :: upper ++ after))
        let stop ← readBound (between (before ++ lower ++ ['<'] ++ parameter ++ ['<']) upper after)
        if stop ≤ start then blame (.range .order) (between before text after)
        else return (start, stop) := by
  rw [readRange, splitOn_of_threeParts h, lift_ok, ok_bind]
  dsimp only
  rw [text_between, lift_ok, ok_bind]

/-- A range is read as its two ends. -/
theorem readRange_of_spellsRange {start stop : α} (h : SpellsRange text start stop) :
    readRange (between before text after) = .ok (start, stop) := by
  cases h with
  | bounds hparts hlower hupper horder =>
    rw [readRange_of_threeParts before after hparts, if_neg (not_not_intro rfl),
      readBound_of_spellsBound _ _ hlower, ok_bind, readBound_of_spellsBound _ _ hupper, ok_bind,
      if_neg horder]
    rfl

/-- Reading a text that is no range fails with its fault. -/
theorem readRange_of_rangeFault {e : ParseError} (h : RangeFault α before after text e) :
    readRange (α := α) (between before text after) = .error (.invalid e) := by
  cases h with
  | form hcount =>
    obtain ⟨parts, hparts, hlength⟩ := exists_splitOn_between before text after '<'
    rw [readRange, hparts, lift_ok, ok_bind]
    split
    · simp at hlength
      omega
    · rfl
  | parameter hparts ht =>
    rw [readRange_of_threeParts before after hparts, if_pos ht]
    rfl
  | lower hparts h =>
    rw [readRange_of_threeParts before after hparts, if_neg (not_not_intro rfl),
      readBound_of_boundFault _ _ h]
    rfl
  | upper hparts hlower h =>
    rw [readRange_of_threeParts before after hparts, if_neg (not_not_intro rfl),
      readBound_of_spellsBound _ _ hlower, ok_bind, readBound_of_boundFault _ _ h]
    rfl
  | order hparts hlower hupper horder =>
    rw [readRange_of_threeParts before after hparts, if_neg (not_not_intro rfl),
      readBound_of_spellsBound _ _ hlower, ok_bind, readBound_of_spellsBound _ _ hupper, ok_bind,
      if_pos horder]
    rfl

/-- Every text is a range, or has a fault wherever it stands. -/
theorem spellsRange_or_rangeFault (α : Type) [Scalar α] (text : List Char) :
    (∃ start stop : α, SpellsRange text start stop) ∨ ∃ e, RangeFault α before after text e := by
  by_cases hcount : text.count '<' = 2
  · obtain ⟨lower, parameter, upper, hparts⟩ := exists_threeParts_iff.2 hcount
    by_cases ht : parameter = ['t']
    · subst ht
      rcases spellsBound_or_boundFault before ('<' :: ['t'] ++ '<' :: upper ++ after) α lower with
        ⟨start, hstart⟩ | ⟨e, he⟩
      · rcases spellsBound_or_boundFault (before ++ lower ++ ['<'] ++ ['t'] ++ ['<']) after α upper
          with ⟨stop, hstop⟩ | ⟨e, he⟩
        · by_cases horder : stop ≤ start
          · exact .inr ⟨_, .order hparts hstart hstop horder⟩
          · exact .inl ⟨start, stop, .bounds hparts hstart hstop horder⟩
        · exact .inr ⟨e, .upper hparts hstart he⟩
      · exact .inr ⟨e, .lower hparts he⟩
    · exact .inr ⟨_, .parameter hparts ht⟩
  · exact .inr ⟨_, .form hcount⟩

end PlotSheet.Equation
