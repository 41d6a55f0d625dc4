import PlotSheet.Text.Similarity

/-!
# Commands

The commands of a session, by name.

## Main definitions

* `Command`: the commands
* `Command.ofName?`: the command of a name
* `Command.suggestion?`: the name most similar to a text
-/

namespace PlotSheet

/-- A command of a session. -/
inductive Command where
  | help
  | quit
  | add
  | edit
  | remove
  | toggle
  | color
  | list
  | points
  | window
  | plot
  deriving DecidableEq, Repr

namespace Command

/-- The commands in the order in which they are listed. -/
def all : List Command :=
  [help, quit, add, edit, remove, toggle, color, list, points, window, plot]

/-- The name of a command. -/
def name : Command → String
  | help => "help"
  | quit => "quit"
  | add => "add"
  | edit => "edit"
  | remove => "remove"
  | toggle => "toggle"
  | color => "color"
  | list => "list"
  | points => "points"
  | window => "window"
  | plot => "plot"

/-- What a command does. -/
def summary : Command → String
  | help => "display help for each command"
  | quit => "quit the shell"
  | add => "add an equation, like 'y=3x^2-2x+1' or 'x=2cos(t);y=sin(t);0<t<2pi'"
  | edit => "replace the text of an equation"
  | remove => "remove an equation"
  | toggle => "show or hide a valid equation"
  | color => "set the color of an equation"
  | list => "list equations with their status and color"
  | points => "print the points sampled from an equation (for debugging)"
  | window => "set window parameters"
  | plot => "plot every graphed equation to an svg file"

/-- The command with exactly the given name. -/
def ofName? (name : String) : Option Command :=
  all.find? fun c => c.name == name

/-- The command name most similar to a text, if one is similar enough. -/
def suggestion? (measure : Text.Measure) (text : String) : Option String :=
  Text.closest? measure text (all.map name)

/-- The lines that explain all commands. -/
def helpText : String :=
  String.join (all.map fun c => s!"{c.name}: {c.summary}\n")

theorem mem_all (c : Command) : c ∈ all := by
  cases c <;> decide

/-- Every command answers to its own name. -/
theorem ofName?_name (c : Command) : ofName? c.name = some c := by
  cases c <;> decide

end Command

end PlotSheet
