/-!
# Texts measured in bytes

A text is a list of characters; a position in it is a number of bytes of its UTF-8 form. Only the
positions between two characters can cut the text.

## Main definitions

* `byteLength`: the bytes of a text
* `splitBytes?`: the two sides of a cut
* `find?`, `occurrences`: searching for a pattern
* `charOffsets`: the characters of a text with their places

## Main results

* `splitBytes?_eq_some_iff`: a cut gives back the text, and its left side has the bytes asked for
* `splitBytes?_byteLength`: every boundary can be cut
-/

namespace PlotSheet.Text

/-- The number of bytes of a text in UTF-8. -/
def byteLength : List Char → Nat
  | [] => 0
  | c :: rest => c.utf8Size + byteLength rest

/-- The text cut after its first `n` bytes, if that position is a character boundary. -/
def splitBytes? : Nat → List Char → Option (List Char × List Char)
  | 0, text => some ([], text)
  | _ + 1, [] => none
  | n + 1, c :: rest =>
    if c.utf8Size ≤ n + 1 then
      (splitBytes? (n + 1 - c.utf8Size) rest).map fun cut => (c :: cut.1, cut.2)
    else none

/-- The byte offset of the first occurrence of the pattern. -/
def find? (pattern : List Char) : List Char → Option Nat
  | [] => if pattern.isEmpty then some 0 else none
  | c :: rest =>
    if pattern.isPrefixOf (c :: rest) then some 0
    else (find? pattern rest).map (c.utf8Size + ·)

/-- The number of positions at which the pattern occurs; the pattern is not empty. -/
def occurrences (pattern : List Char) : List Char → Nat
  | [] => 0
  | c :: rest => (if pattern.isPrefixOf (c :: rest) then 1 else 0) + occurrences pattern rest

/-- The character starts a new signed term. -/
def isSign (c : Char) : Bool :=
  c == '+' || c == '-'

/-- The characters of a text with their byte offsets, where the text starts at byte `i`. -/
def charOffsets (i : Nat) : List Char → List (Nat × Char)
  | [] => []
  | c :: rest => (i, c) :: charOffsets (i + c.utf8Size) rest

@[simp] theorem byteLength_nil : byteLength [] = 0 := rfl

@[simp] theorem byteLength_cons (c : Char) (text : List Char) :
    byteLength (c :: text) = c.utf8Size + byteLength text := rfl

@[simp] theorem byteLength_append (a b : List Char) :
    byteLength (a ++ b) = byteLength a + byteLength b := by
  induction a with
  | nil => simp
  | cons c a ih => simp [ih, Nat.add_assoc]

@[simp] theorem splitBytes?_zero (text : List Char) : splitBytes? 0 text = some ([], text) := by
  cases text <;> rfl

/-- Every boundary can be cut. -/
theorem splitBytes?_byteLength (a b : List Char) :
    splitBytes? (byteLength a) (a ++ b) = some (a, b) := by
  induction a with
  | nil => simp
  | cons c a ih =>
    have hc := c.utf8Size_pos
    obtain ⟨n, hn⟩ : ∃ n, c.utf8Size + byteLength a = n + 1 :=
      ⟨_, (Nat.succ_pred (by omega)).symm⟩
    have hle : c.utf8Size ≤ n + 1 := by omega
    have hsub : n + 1 - c.utf8Size = byteLength a := by omega
    simp [splitBytes?, hn, hle, hsub, ih]

/-- A cut gives back the text, and its left side has the bytes asked for. -/
theorem splitBytes?_eq_some_iff {n : Nat} {text a b : List Char} :
    splitBytes? n text = some (a, b) ↔ text = a ++ b ∧ byteLength a = n := by
  constructor
  · intro h
    fun_induction splitBytes? n text generalizing a b with
    | case1 text => simp_all
    | case2 => simp at h
    | case3 n c rest hle ih =>
      obtain ⟨⟨l, r⟩, hcut, heq⟩ := Option.map_eq_some_iff.1 h
      obtain ⟨rfl, rfl⟩ := Prod.mk.inj heq
      obtain ⟨hrest, hlen⟩ := ih hcut
      exact ⟨by simp [hrest], by simp only [byteLength_cons]; omega⟩
    | case4 => simp at h
  · rintro ⟨rfl, rfl⟩
    exact splitBytes?_byteLength a b

end PlotSheet.Text
