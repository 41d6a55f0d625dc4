import PlotSheet.Drawing.Canvas
import PlotSheet.Equation.Report
import PlotSheet.Session.Command
import PlotSheet.Session.Dialogue
import PlotSheet.Sheet.Listing

/-!
# Turns of a session

In each turn a session shows what its sheet holds, asks for a command and carries it out in a
dialogue, which replaces the state once all that it asks for was answered.

## Main definitions

* `Platform`: what a session takes from its surroundings
* `State`: a sheet and a window
* `header`: the line ahead of each prompt
* `addEquation`, `editEquation`, …, `plot`: the commands
* `turn`: one turn, whose result is whether there is another
-/

namespace PlotSheet.Session

open Dialogue

/-- What a session takes from its surroundings. -/
structure Platform where
  /-- The greatest number of coefficients that there is memory for. -/
  mostCoefficients : Nat
  /-- How similar two words are. -/
  measure : Text.Measure
  /-- How plots are written. -/
  backend : Drawing.Backend

/-- What a session works on. -/
structure State where
  sheet : Sheet
  window : Viewport Float

/-- The plural ending for a count. -/
def plural (n : Nat) : String :=
  if n = 1 then "" else "s"

/-- The line ahead of each prompt. -/
def header (s : Sheet) : String :=
  s!"{s.size} equation{plural s.size}, {s.graphedCount} graphed\n"

/-- An error with its causes. -/
def errorText (heading message : String) (causes : List String) : String :=
  s!"{heading}: {message}\n" ++
    if causes.isEmpty then ""
    else "\ncontext:\n" ++ String.join (causes.map fun cause => s!"  {cause}\n")

/-- What is said if there are no equations. -/
def emptyText : String :=
  "error: no equations have been added\n"

/-! ## Answers -/

/-- Reads a natural number below a limit. -/
def readNatural (limit : Nat) (text : String) : Except String Nat :=
  (Natural.read 10 limit text.toList).mapError NaturalError.message

/-- Reads a number. -/
def readNumber (text : String) : Except String Float :=
  match Literal.read text.toList with
  | .ok l => .ok l.toFloat
  | .error e => .error e.message

/-- Reads a size in pixels. -/
def readSize (text : String) : Except String UInt32 :=
  (readNatural UInt32.size text).map UInt32.ofNat

/-- Reads a color. -/
def readColor (text : String) : Except String Rgb :=
  (Rgb.read text).mapError ColorError.message

/-- Asks for the index of an equation. -/
def askIndex (s : Sheet) : Dialogue State (Option Nat) := do
  if s.isEmpty then
    print emptyText
    return none
  let last ← difference s.size 1
  match ← askFor s!"?index (0-{last}) = " (readNatural wordSize) with
  | .value i =>
    if i ≤ last then return some i
    print s!"error: there is no equation {i}\n"
    return none
  | .blank | .unreadable => return none

/-! ## Commands -/

section Commands

variable (p : Platform) (s : State)

/-- Shows what the text of an entry was read as. -/
def reportEntry (i : Nat) (e : Entry) : Dialogue State Unit := do
  match e.reading with
  | .ok curve => print s!"{i}: {curve.display}\n"
  | .error (.invalid error) =>
    let report ← Equation.report p.measure error
    print s!"\n{report}note: the equation is kept but will not be plotted\n"
  | .error (.fault f) => fault f

/-- Adds an equation. -/
def addEquation : Dialogue State Unit := do
  let text ← prompt "equation: "
  if text.isEmpty then return
  let sheet := s.sheet.add p.mostCoefficients text
  become { s with sheet }
  reportEntry p s.sheet.size (← fetch sheet.entries s.sheet.size)

/-- Replaces the text of an equation. -/
def editEquation : Dialogue State Unit := do
  let some i ← askIndex s.sheet | return
  print "note: leave blank to skip\n"
  let old ← fetch s.sheet.entries i
  let text ← prompt s!"equation (is {old.text}): "
  if text.isEmpty then return
  let some sheet := s.sheet.edit p.mostCoefficients i text | return
  become { s with sheet }
  reportEntry p i (← fetch sheet.entries i)

/-- Removes an equation. -/
def removeEquation : Dialogue State Unit := do
  let some i ← askIndex s.sheet | return
  let some (removed, sheet) := s.sheet.remove i | return
  become { s with sheet }
  print s!"removed '{removed.text}'\n"

/-- Shows or hides an equation. -/
def toggleEquation : Dialogue State Unit := do
  let some i ← askIndex s.sheet | return
  match s.sheet.toggle i with
  | some (true, sheet) => become { s with sheet }
  | some (false, _) => print s!"error: equation {i} is invalid, so it cannot be toggled\n"
  | none => fault .index

/-- Sets the color of an equation. -/
def colorEquation : Dialogue State Unit := do
  let some i ← askIndex s.sheet | return
  print paletteText
  let old ← fetch s.sheet.entries i
  match ← askFor s!"?color (is {old.color.hex}) = " readColor with
  | .value color =>
    let some sheet := s.sheet.setColor i color | return
    become { s with sheet }
  | .blank | .unreadable => return

/-- Lists the equations. -/
def listEquations : Dialogue State Unit := do
  print (← s.sheet.listing)

/-- Lists the points of an equation, without end if there is no last one. -/
def listPoints : Dialogue State Unit := do
  let some i ← askIndex s.sheet | return
  let entry ← fetch s.sheet.entries i
  match entry.reading with
  | .ok curve =>
    print (curve.listing s!"points of '{entry.text}'")
    if curve.ends then return else endless
  | .error (.invalid error) => print (← Equation.report p.measure error)
  | .error (.fault f) => fault f

/-- Asks for another value of a part of the window. The result is none if the answer cannot be
read. -/
def askPart {α : Type} (name current : String) (read : String → Except String α) (old : α) :
    Dialogue State (Option α) := do
  match ← askFor s!"?{name} (is {current}) = " read with
  | .value a => return some a
  | .blank => return some old
  | .unreadable => return none

/-- Asks for another end of a range. -/
def askNumber (name : String) (old : Float) : Dialogue State (Option Float) :=
  askPart name (plainText old) readNumber old

/-- Asks for another size in pixels. -/
def askSize (name : String) (old : UInt32) : Dialogue State (Option UInt32) :=
  askPart name (toString old.toNat) readSize old

/-- Sets the window, to a valid one or not at all. -/
def setWindow : Dialogue State Unit := do
  let old := s.window
  print s!"win = {old.describeLines}\n\nnote: leave blank to skip\n"
  let some left ← askNumber "x min" old.x.start | return
  let some right ← askNumber "x max" old.x.stop | return
  let some bottom ← askNumber "y min" old.y.start | return
  let some top ← askNumber "y max" old.y.stop | return
  print "note: width and height are in pixels\n"
  let some width ← askSize "width" old.frame.width | return
  let some height ← askSize "height" old.frame.height | return
  let window : Viewport Float :=
    ⟨⟨left, right⟩, ⟨bottom, top⟩, { old.frame with width := width, height := height }⟩
  if window.IsValid then become { s with window }
  else print "error: ranges must be finite with min < max, and width and height nonzero\n"

/-! ## Plotting -/

/-- Why a plot was given up, with the wordings of what caused it. -/
structure Trouble where
  message : String
  causes : List String
  deriving Inhabited

/-- The size of a canvas for a rectangle of the given size at the given offset, kept within 32
bits. -/
def canvasSize (offset : Int32) (size : UInt32) : UInt32 :=
  UInt32.ofNat (min (size.toNat + offset.toInt.toNat) (UInt32.size - 1))

/-- The canvas for a plot. -/
def startPlot : Except Trouble (Drawing.Canvas p.backend) :=
  let frame := s.window.frame
  (Drawing.Canvas.start p.backend (canvasSize frame.x frame.width)
    (canvasSize frame.y frame.height)).mapError fun reason =>
      ⟨"failed to start svg document", [reason]⟩

/-- The document of a plot, and what it holds. -/
def finishPlot (canvas : Drawing.Canvas p.backend) : Except Trouble (String × Drawing.Stats) := do
  let (steps, stats) := Drawing.drawScene s.window s.sheet.figures
  let (document, _) ← (canvas.drawAll steps).finish.mapError fun reason =>
    ⟨"failed to draw svg document", [reason]⟩
  return (document, stats)

/-- Whether every curve that is drawn has a last point. -/
def endsPlot : Bool :=
  (s.sheet.figures.filter Drawing.Figure.visible).all fun f => f.curve.ends

/-- Says a text, and a text that is refused is trouble. -/
def inform (text : String) : Dialogue State (Except Trouble Unit) := do
  return (← tryPrint text).mapError fun reason => ⟨reason, []⟩

/-- Saves a plot and says what it holds. -/
def savePlot (document : String) (stats : Drawing.Stats) :
    Dialogue State (Except Trouble Unit) := do
  match ← saveDocument document with
  | .ok path =>
    inform (s!"plotted {stats.curves} curve{plural stats.curves} " ++
      s!"({stats.segments} segments) to {path}\n")
  | .error e => return .error ⟨e.message, e.causes⟩

/-- Plots the graphed equations to a file. -/
def plotSheet : Dialogue State (Except Trouble Unit) := do
  if s.sheet.isEmpty then inform emptyText
  else
    match startPlot p s with
    | .error trouble => return .error trouble
    | .ok canvas =>
      if endsPlot s then
        match finishPlot p s canvas with
        | .error trouble => return .error trouble
        | .ok (document, stats) => savePlot document stats
      else endless

/-- Plots the graphed equations, and says so if that is given up. -/
def plot : Dialogue State Unit := do
  match ← plotSheet p s with
  | .ok () => return
  | .error trouble => print (errorText "error" trouble.message trouble.causes)

/-! ## Turns -/

/-- Carries out a command. For `quit` there is nothing to do. -/
def perform : Command → Dialogue State Unit
  | .help => print Command.helpText
  | .quit => return
  | .add => addEquation p s
  | .edit => editEquation p s
  | .remove => removeEquation s
  | .toggle => toggleEquation s
  | .color => colorEquation s
  | .list => listEquations s
  | .points => listPoints p s
  | .window => setWindow s
  | .plot => plot p s

/-- What is said about a text that is no command. -/
def unknownText (text : String) : String :=
  match Command.suggestion? p.measure text with
  | some name =>
    if text.isEmpty then "Unknown command, try \"help\" for help\n"
    else s!"Unknown command, did you mean \"{name}\"? Try \"help\" for help\n"
  | none => "Unknown command, try \"help\" for help\n"

/-- One turn. The result is whether there is another one, which there is not after `quit`. -/
def turn : Dialogue State Bool := do
  print (header s.sheet)
  let line ← prompt "> "
  let name := String.ofList (line.toList.map Char.toLower)
  print "\n"
  match Command.ofName? name with
  | some .quit => return false
  | some command =>
    perform p s command
    print "\n"
    return true
  | none =>
    print (unknownText p name ++ "\n")
    return true

end Commands

end PlotSheet.Session
