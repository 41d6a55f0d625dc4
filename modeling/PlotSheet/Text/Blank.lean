/-!
# White space

The characters of the Unicode property White_Space. Equations are read without them, and typed
lines are cut off them at both ends.

## Main definitions

* `isBlank`: the character property, from its table of ranges
* `withoutBlanks`: a text without blanks
* `trim`: a text without the blanks at its ends
-/

namespace PlotSheet.Text

/-- The property White_Space as closed ranges of code points. -/
def blankRanges : List (Nat × Nat) :=
  [(0x9, 0xD), (0x20, 0x20), (0x85, 0x85), (0xA0, 0xA0), (0x1680, 0x1680), (0x2000, 0x200A),
    (0x2028, 0x2029), (0x202F, 0x202F), (0x205F, 0x205F), (0x3000, 0x3000)]

/-- Whether a character is white space. -/
def isBlank (c : Char) : Bool :=
  blankRanges.any fun r => r.1 ≤ c.toNat && c.toNat ≤ r.2

/-- The text without its blanks. -/
def withoutBlanks (text : List Char) : List Char :=
  text.filter fun c => !isBlank c

/-- The text without its leading blanks. -/
def trimStart (text : List Char) : List Char :=
  text.dropWhile isBlank

/-- The text without its trailing blanks. -/
def trimEnd (text : List Char) : List Char :=
  (trimStart text.reverse).reverse

/-- The text without the blanks at either end. -/
def trim (text : List Char) : List Char :=
  trimEnd (trimStart text)

@[simp] theorem withoutBlanks_nil : withoutBlanks [] = [] := rfl

@[simp] theorem withoutBlanks_append (a b : List Char) :
    withoutBlanks (a ++ b) = withoutBlanks a ++ withoutBlanks b :=
  List.filter_append ..

/-- Blanks are gone after they are removed once. -/
@[simp] theorem withoutBlanks_withoutBlanks (text : List Char) :
    withoutBlanks (withoutBlanks text) = withoutBlanks text := by
  simp [withoutBlanks, List.filter_filter]

theorem withoutBlanks_eq_self {text : List Char} (h : ∀ c ∈ text, isBlank c = false) :
    withoutBlanks text = text := by
  rw [withoutBlanks, List.filter_eq_self]
  exact fun c hc => by rw [h c hc, Bool.not_false]

theorem not_isBlank_of_mem_withoutBlanks {c : Char} {text : List Char}
    (h : c ∈ withoutBlanks text) :
    isBlank c = false := by
  simpa using (List.mem_filter.1 h).2

/-- A text without blanks has none at its ends. -/
theorem trim_eq_self {text : List Char} (h : ∀ c ∈ text, isBlank c = false) : trim text = text := by
  have hstart {t : List Char} (ht : ∀ c ∈ t, isBlank c = false) : trimStart t = t := by
    cases t with
    | nil => rfl
    | cons c rest => exact List.dropWhile_cons_of_neg (by simp [ht c List.mem_cons_self])
  rw [trim, hstart h, trimEnd, hstart (fun c hc => h c (List.mem_reverse.1 hc)),
    List.reverse_reverse]

end PlotSheet.Text
