import PlotSheet.Drawing.Svg
import PlotSheet.Session.Turn

/-!
# Sessions

A session runs turn after turn from its first state until it is told to quit, its input ends, a
line of it cannot be read, or a command does not come to an end.

## Main definitions

* `State.initial`: the state that a session starts from
* `turns`: the turns on a given input
* `Transcript`, `transcript`: what a session on a given input leaves behind
* `Platform.standard`: what the program takes from its surroundings
-/

namespace PlotSheet.Session

open Dialogue

/-- A sheet with one equation, and the default window. -/
def State.initial (p : Platform) : State :=
  ⟨Sheet.empty.add p.mostCoefficients "y = x^2 - 4", .initial⟩

/-- How a session ends, or that it does not. -/
inductive Ending where
  | quit
  | interrupted (e : InputError)
  | endless
  | fault (f : Fault)
  deriving DecidableEq

variable (p : Platform) (disk : Disk)

/-- The turns from a state, at most `fuel` of them, with the last state. -/
def turns : (fuel : Nat) → State → World → Ending × State × World
  | 0, s, w => (.interrupted .endOfInput, s, w)
  | fuel + 1, s, w =>
    match (turn p s).run disk s w with
    | (.done true, s', w') => turns fuel s' w'
    | (.done false, s', w') => (.quit, s', w')
    | (.interrupted e, s', w') => (.interrupted e, s', w')
    | (.endless, s', w') => (.endless, s', w')
    | (.fault f, s', w') => (.fault f, s', w')

/-- The turns of a session on the given input. Each reads at least one byte, or is the last. -/
def runInput (input : List UInt8) : Ending × State × World :=
  turns p disk (input.length + 1) (.initial p) ⟨⟨input, ""⟩, 0, []⟩

/-- What a session leaves behind. -/
structure Transcript where
  output : String
  /-- What is written to the standard error stream. -/
  errors : String
  /-- The exit status, if the session ends. -/
  status : Option Nat
  /-- The files that were written. -/
  files : List String
  deriving DecidableEq, Repr

/-- What is written at the very end of the output. -/
def Ending.farewell : Ending → String
  | interrupted .endOfInput => "\n"
  | _ => ""

/-- What is written to the standard error stream. -/
def Ending.errors : Ending → String
  | interrupted .notUtf8 =>
    errorText "unexpected error" InputError.notUtf8.message InputError.notUtf8.causes
  | fault _ => errorText "unexpected error" "internal fault" []
  | _ => ""

/-- The exit status. Both `quit` and the end of the input are regular. -/
def Ending.status : Ending → Option Nat
  | quit | interrupted .endOfInput => some 0
  | interrupted .notUtf8 => some 1
  | endless => none
  | fault _ => some 101

/-- What a session on the given input leaves behind. -/
def transcript (input : List UInt8) : Transcript :=
  let (ending, _, world) := runInput p disk input
  ⟨world.console.output ++ ending.farewell, ending.errors, ending.status, world.files⟩

/-- The path of a plot with the given stamp. -/
def plotPath (stamp : String) : String :=
  s!"./grapher_output-{stamp}.svg"

/-- What the program takes from its surroundings: memory for 2^24 coefficients, a similarity that
counts the edits between two words, and documents in memory. -/
def Platform.standard : Platform :=
  ⟨16777216, Text.similarity, Drawing.svgBackend⟩

end PlotSheet.Session
