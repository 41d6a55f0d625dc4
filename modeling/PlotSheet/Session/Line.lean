import PlotSheet.Text.Blank

/-!
# Lines of input

The input of a session is a sequence of bytes that is read line by line, each without the blanks
at its ends. The last line may lack its newline. A line that is not UTF-8 is an error and is read
past like any other.

## Main definitions

* `splitLine`: the bytes through the first newline, and the rest
* `readLine`: the next line, and the rest
* `Console`, `Console.ask`: a prompt and its answer
-/

namespace PlotSheet

/-- Why there is no answer to a prompt. -/
inductive InputError where
  /-- There is no further line. -/
  | endOfInput
  /-- The line is not UTF-8. -/
  | notUtf8
  deriving DecidableEq, Repr

/-- The wording of an input error. -/
def InputError.message : InputError → String
  | endOfInput => "end of input"
  | notUtf8 => "read from standard input failed"

/-- The wordings of what caused an input error. -/
def InputError.causes : InputError → List String
  | endOfInput => []
  | notUtf8 => ["stream did not contain valid UTF-8"]

/-- The byte that ends a line. -/
def newline : UInt8 := 10

/-- The bytes through the first newline, and the rest. -/
def splitLine : List UInt8 → List UInt8 × List UInt8
  | [] => ([], [])
  | b :: rest =>
    if b = newline then ([b], rest)
    else
      let (line, after) := splitLine rest
      (b :: line, after)

/-- The text that a line of bytes spells, without the blanks at its ends. -/
def lineText (line : List UInt8) : Except InputError String :=
  match String.fromUTF8? ⟨line.toArray⟩ with
  | some text => .ok (String.ofList (Text.trim text.toList))
  | none => .error .notUtf8

/-- The next line of the input, and the rest. -/
def readLine (input : List UInt8) : Except InputError String × List UInt8 :=
  if input.isEmpty then (.error .endOfInput, [])
  else
    let (line, rest) := splitLine input
    (lineText line, rest)

/-- The two ends of a session: the input to come and the output so far. -/
structure Console where
  input : List UInt8
  output : String

namespace Console

/-- Writes a text. -/
def write (c : Console) (text : String) : Console :=
  { c with output := c.output ++ text }

/-- Writes a prompt and reads the answer. -/
def ask (c : Console) (prompt : String) : Except InputError String × Console :=
  let (answer, rest) := readLine c.input
  (answer, ⟨rest, c.output ++ prompt⟩)

end Console

end PlotSheet
