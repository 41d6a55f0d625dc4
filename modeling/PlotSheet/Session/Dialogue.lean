import PlotSheet.Session.Line
import PlotSheet.Text.Span

/-!
# Dialogues

A dialogue says texts, asks for lines, saves documents and replaces the state it works on; what it
does next depends on the answers. It is a value: nothing happens until it is run, against a list of
bytes and a rule for saving, or by the program against the terminal and the file system.

## Main definitions

* `Dialogue`: the dialogues over a state that end with a result
* `Dialogue.askFor`: a prompt whose answer is read as a value
* `Disk`, `World`: what a dialogue is run against
* `Dialogue.run`: a dialogue against a console and a disk
-/

namespace PlotSheet

/-- Why a document was not saved. -/
inductive SaveError where
  | opening (reason : String)
  | writing (reason : String)
  | completing (reason : String)
  deriving DecidableEq, Repr

/-- The wording of a save error. -/
def SaveError.message : SaveError → String
  | opening _ => "failed to open output svg file"
  | writing _ => "failed to write to output svg file"
  | completing reason => reason

/-- The wordings of what caused a save error. -/
def SaveError.causes : SaveError → List String
  | opening reason => [reason]
  | writing reason => [reason]
  | completing _ => []

/-- A conversation over lines of text, which works on a state and has a result. -/
inductive Dialogue (σ α : Type) where
  | done (result : α)
  /-- From here on the state is another one. -/
  | put (state : σ) (next : Dialogue σ α)
  /-- A text without which there is no going on. -/
  | say (text : String) (next : Dialogue σ α)
  /-- A text that may be refused, with the wording of the reason. -/
  | tell (text : String) (next : Except String Unit → Dialogue σ α)
  | ask (prompt : String) (next : String → Dialogue σ α)
  /-- Saving answers with the path of the document. -/
  | save (document : String) (next : Except SaveError String → Dialogue σ α)
  /-- From here on the dialogue does not come to an end. -/
  | endless
  | fault (f : Fault)

namespace Dialogue

variable {σ α β : Type}

/-- The dialogue that goes on with the result of another. -/
def bind : Dialogue σ α → (α → Dialogue σ β) → Dialogue σ β
  | done a, k => k a
  | put s next, k => put s (next.bind k)
  | say text next, k => say text (next.bind k)
  | tell text next, k => tell text fun told => (next told).bind k
  | ask prompt next, k => ask prompt fun answer => (next answer).bind k
  | save document next, k => save document fun saved => (next saved).bind k
  | endless, _ => endless
  | fault f, _ => fault f

instance : Monad (Dialogue σ) where
  pure := done
  bind := bind

instance : MonadLift (Except Fault) (Dialogue σ) where
  monadLift
    | .ok a => done a
    | .error f => fault f

/-- Replaces the state. -/
def become (s : σ) : Dialogue σ Unit :=
  put s (done ())

/-- Says a text. -/
def print (text : String) : Dialogue σ Unit :=
  say text (done ())

/-- Says a text that may be refused. -/
def tryPrint (text : String) : Dialogue σ (Except String Unit) :=
  tell text done

/-- Asks for a line. -/
def prompt (text : String) : Dialogue σ String :=
  ask text done

/-- Saves a document. -/
def saveDocument (document : String) : Dialogue σ (Except SaveError String) :=
  save document done

/-- An answer that was to be read as a value. -/
inductive Answer (α : Type) where
  | blank
  | value (a : α)
  | unreadable

/-- Asks for a value. An answer that cannot be read is shown with carets under it. -/
def askFor (text : String) (read : String → Except String α) : Dialogue σ (Answer α) := do
  let answer ← prompt text
  if answer.isEmpty then return .blank
  match read answer with
  | .ok a => return .value a
  | .error message =>
    let marked ← (Span.whole answer.toList).underline
    print s!"\n{marked}parse error: {message}\n"
    return .unreadable

/-! ## Running a dialogue -/

/-- What an attempt to save a document comes to. -/
inductive Attempt where
  | saved (path : String)
  /-- Once a file is opened it stays, with so many characters of the document. -/
  | failed (e : SaveError) (kept : Nat)

namespace Attempt

/-- What the attempt answers. -/
def answer : Attempt → Except SaveError String
  | saved path => .ok path
  | failed e _ => .error e

/-- What is in the file that the attempt leaves behind, if there is one. -/
def file? (document : String) : Attempt → Option String
  | saved _ => some document
  | failed (.opening _) _ => none
  | failed _ kept => some (String.ofList (document.toList.take kept))

end Attempt

/-- The rule for saving: what the attempt with a given number comes to. -/
abbrev Disk := Nat → Attempt

/-- What a dialogue is run against. -/
structure World where
  console : Console
  /-- The number of attempts to save. -/
  attempts : Nat
  /-- The files written so far. -/
  files : List String

/-- How a dialogue ends. -/
inductive Outcome (α : Type) where
  | done (result : α)
  | interrupted (e : InputError)
  | endless
  | fault (f : Fault)

namespace World

/-- The world after a text. -/
def told (w : World) (text : String) : World :=
  { w with console := w.console.write text }

/-- One attempt to save a document. -/
def save (disk : Disk) (w : World) (document : String) : Except SaveError String × World :=
  let attempt := disk w.attempts
  (attempt.answer, { w with
    attempts := w.attempts + 1
    files := w.files ++ (attempt.file? document).toList })

end World

/-- The run of a dialogue whose texts are all taken: how it ends, and the state and the world that
it leaves behind. -/
def run (disk : Disk) : Dialogue σ α → σ → World → Outcome α × σ × World
  | done a, s, w => (.done a, s, w)
  | put s next, _, w => next.run disk s w
  | say text next, s, w => next.run disk s (w.told text)
  | tell text next, s, w => (next (.ok ())).run disk s (w.told text)
  | ask prompt next, s, w =>
    match w.console.ask prompt with
    | (.ok answer, console) => (next answer).run disk s { w with console := console }
    | (.error e, console) => (.interrupted e, s, { w with console := console })
  | save document next, s, w =>
    let (saved, w') := w.save disk document
    (next saved).run disk s w'
  | endless, s, w => (.endless, s, w)
  | fault f, s, w => (.fault f, s, w)

end Dialogue

end PlotSheet
