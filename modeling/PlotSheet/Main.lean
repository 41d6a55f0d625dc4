import PlotSheet.Session.Run
import Std.Time

/-!
# The program

Runs a session against the standard streams, and saves plots to new files in the working
directory. Everything that a session says and decides is in its dialogues; this module carries
them out, up to the first text that cannot be written or line that cannot be read.
-/

namespace PlotSheet.Main

open Dialogue

/-- Reads through the next newline, or to the end of the stream. -/
partial def readBytes (stream : IO.FS.Stream) (line : ByteArray) : IO ByteArray := do
  let byte ← stream.read 1
  if byte.isEmpty then return line
  else if byte.data.contains newline then return line ++ byte
  else readBytes stream (line ++ byte)

/-- The text of a system error. -/
def errorReason : IO.Error → String
  | .noFileOrDirectory _ code details => s!"{details} (os error {code})"
  | .permissionDenied _ code details => s!"{details} (os error {code})"
  | .resourceExhausted _ code details => s!"{details} (os error {code})"
  | e => toString e

/-- An action on the standard streams, whose failure is trouble with the given wording. -/
def attempt {α : Type} (trouble : String → Session.Trouble) (action : IO α) :
    EIO Session.Trouble α :=
  action.toEIO fun e => trouble (errorReason e)

/-- Writes a text. -/
def write (text : String) : EIO Session.Trouble Unit :=
  attempt (⟨·, []⟩) do (← IO.getStdout).putStr text

/-- Writes a prompt and reads the answer. -/
def ask (prompt : String) : EIO Session.Trouble (Except InputError String) :=
  attempt (⟨InputError.notUtf8.message, [·]⟩) do
    let output ← IO.getStdout
    output.putStr prompt
    output.flush
    let line ← readBytes (← IO.getStdin) .empty
    return (readLine line.data.toList).1

/-- Creates a file that does not exist yet. Names that are taken are numbered. -/
partial def createFile (stamp : String) (n : Nat) : IO (IO.FS.Handle × String) := do
  let path := Session.plotPath (if n = 0 then stamp else s!"{stamp}-{n}")
  match ← (IO.FS.Handle.mk path .writeNew).toBaseIO with
  | .ok file => return (file, path)
  | .error (.alreadyExists ..) => createFile stamp (n + 1)
  | .error e => throw e

/-- Creates a file that is named after the time. -/
def createOutput : IO (IO.FS.Handle × String) := do
  let now ← Std.Time.PlainDateTime.now
  createFile (now.format "uuuu-MM-dd_HH-mm-ss") 0

/-- Saves a document to a new file. -/
def saveOutput (document : String) : EIO SaveError String := do
  let (file, path) ← createOutput.toEIO fun e => .opening (errorReason e)
  (file.putStr document).toEIO fun e => .writing (errorReason e)
  file.flush.toEIO fun e => .completing (errorReason e)
  return path

/-- Goes on without end. -/
partial def idle {α : Type} : EIO Session.Trouble (Outcome α) := do
  IO.sleep 1000
  idle

/-- Carries out a dialogue, and answers with the state that it leaves behind. -/
def converse {σ α : Type} : Dialogue σ α → σ → EIO Session.Trouble (Outcome α × σ)
  | .done a, s => return (.done a, s)
  | .put s next, _ => converse next s
  | .say text next, s => do
    write text
    converse next s
  | .tell text next, s => do
    let told ← (write text).toBaseIO
    converse (next (told.mapError Session.Trouble.message)) s
  | .ask prompt next, s => do
    match ← ask prompt with
    | .ok answer => converse (next answer) s
    | .error e => return (.interrupted e, s)
  | .save document next, s => do
    converse (next (← (saveOutput document).toBaseIO)) s
  | .endless, s => return (← idle, s)
  | .fault f, s => return (.fault f, s)

/-- Carries out turns until the session ends. -/
partial def converseAll (s : Session.State) : EIO Session.Trouble Session.Ending := do
  match ← converse (Session.turn .standard s) s with
  | (.done true, s') => converseAll s'
  | (.done false, _) => return .quit
  | (.interrupted e, _) => return .interrupted e
  | (.endless, _) => return .endless
  | (.fault f, _) => return .fault f

/-- Carries out a session to its last text. -/
def runSession : EIO Session.Trouble Session.Ending := do
  let ending ← converseAll (.initial .standard)
  write ending.farewell
  attempt (⟨·, []⟩) do (← IO.getStdout).flush
  return ending

end PlotSheet.Main

/-- Runs one session. -/
def main : IO UInt32 := do
  match ← PlotSheet.Main.runSession.toBaseIO with
  | .ok ending =>
    IO.eprint ending.errors
    return UInt32.ofNat (ending.status.getD 0)
  | .error trouble =>
    IO.eprint (PlotSheet.Session.errorText "unexpected error" trouble.message trouble.causes)
    return 1
