/-!
# Similar words

The candidate proposed for a text is the one most similar to it. Which similarity is measured is a
parameter: a measure takes two words to a number.

One measure counts edits. The distance of two words is the least number of insertions, deletions,
replacements and transpositions that make one of them the other, where two characters may be
transposed across others that are deleted or inserted between them. It is computed in a table with
one row for each beginning of the first word and one column for each beginning of the second.

## Main definitions

* `Measure`: a measure of the similarity of two words
* `distance`: the distance of two words, row by row
* `similarity`: the share of the longer word that is not edited
* `firstBest`: the earliest entry of a list with the greatest score
* `caselessSimilarity`: a measure without regard to the case of ASCII letters
* `closest?`: the candidate most similar to a text, if it is similar enough
-/

namespace PlotSheet.Text

/-- A measure of the similarity of two words. -/
abbrev Measure := List Char → List Char → Float

/-- The last position, counted from one, at which a character stands; zero if it does not. -/
def lastIndex (c : Char) (word : List Char) : Nat :=
  word.length - (word.reverse.findIdx? (· == c)).getD word.length

/-- The edits that end in the transposition of the characters at positions `row` and `i` of the
first word with those at `matched` and `j` of the second, on top of the entry before both. The
rows are those of smaller numbers than `i`, the nearest one first. -/
def transposed (rows : List (List Nat)) (i row j matched : Nat) : Nat :=
  (rows.getD (i - row) []).getD (matched - 1) 0 + (i - row - 1) + 1 + (j - matched - 1)

/-- The entries of the row of `a ++ [c]` from column `j` on, beside the entry `left` and below the
entries `above`, the first of which is diagonal to the first one asked for. `matched` is the last
column before `j` whose character is `c`; zero if there is none. -/
def rowFrom (rows : List (List Nat)) (a : List Char) (c : Char) (left matched j : Nat) :
    (above : List Nat) → (b : List Char) → List Nat
  | diagonal :: up :: above, d :: b =>
    let i := a.length + 1
    let row := lastIndex d a
    let edited := min (diagonal + if c = d then 0 else 1) (min (left + 1) (up + 1))
    let entry :=
      if row = 0 ∨ matched = 0 then edited else min edited (transposed rows i row j matched)
    entry :: rowFrom rows a c entry (if c = d then j else matched) (j + 1) (up :: above) b
  | _, _ => []

/-- The last row of the table for `a ++ rest`, given the rows for the beginnings of `a`, the last
one first. -/
def lastRow (b : List Char) (above : List Nat) (earlier : List (List Nat)) (a : List Char) :
    List Char → List Nat
  | [] => above
  | c :: rest =>
    let i := a.length + 1
    lastRow b (i :: rowFrom (above :: earlier) a c i 0 1 above b) (above :: earlier) (a ++ [c]) rest

/-- The distance of two words. -/
def distance (a b : List Char) : Nat :=
  (lastRow b (List.range (b.length + 1)) [] [] a).getLastD 0

/-- The share of the longer word that is not edited; two empty words are alike. -/
def similarity (a b : List Char) : Float :=
  if a.isEmpty && b.isEmpty then 1
  else 1 - Float.ofNat (distance a b) / Float.ofNat (max a.length b.length)

/-- A candidate that is no more similar than this is not proposed. -/
def leastSimilarity : Float := 0.3

variable {α β : Type} [LT β] [DecidableLT β]

/-- The first entry with the greatest score, among `best` and the entries behind it. -/
def firstBest (score : α → β) (best : α) : List α → α
  | [] => best
  | a :: rest => if score best < score a then firstBest score a rest else firstBest score best rest

/-- The similarity of two words without regard to the case of ASCII letters. -/
def caselessSimilarity (measure : Measure) (a b : String) : Float :=
  measure (a.toList.map Char.toLower) (b.toList.map Char.toLower)

/-- The first of the candidates most similar to a text, if it is similar enough. -/
def closest? (measure : Measure) (text : String) : List String → Option String
  | [] => none
  | candidate :: rest =>
    let best := firstBest (caselessSimilarity measure text) candidate rest
    if leastSimilarity < caselessSimilarity measure text best then some best else none

end PlotSheet.Text
