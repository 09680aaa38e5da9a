import TapeMachine.Command.Basic
import TapeMachine.Display.Grid
import TapeMachine.Graph.Dot
import TapeMachine.Graph.Mermaid

/-!
# Inspecting a program

The command shows a program as a grid of its transitions, or as a diagram. A Graphviz diagram can
also be written to a file.
-/

namespace TapeMachine.Command.Inspect

open Session

/-- How the command is used. -/
def manual : Manual where
  purpose := "Turing Machine Inspector"
  switches :=
    [⟨"--file", .text, true, "Machine source file, e.g., machines/palindrome.tm"⟩,
      ⟨"--format", .oneOf ["table", "mermaid", "dot"], false, "What to print"⟩,
      ⟨"--output", .text, false, "Write DOT output to this path instead of printing it"⟩]

/-- Writes the Graphviz diagram of a graph to a file. -/
def writeDot (g : Graph) (path : String) (layout : Graph.Dot.Layout) (current : Option State)
    (status : Status) (active : Option Int) : Session Unit :=
  writeText path (g.toDot layout current status active ++ "\n")

/-- Shows a program. -/
def showProgram (p : Program) (given : Given) : Session Unit := do
  match (given.get? "--format").getD (some "table") with
  | some "table" =>
    draw p.table.grid
    sayIn "cyan" (toString p.graph.nodes.length ++ " states, " ++ toString p.table.size
      ++ " transitions.")
  | some "mermaid" => sayPlain (p.graph.toMermaid none .idle none)
  | _ =>
    let path := (given.text? "--output").getD ""
    if path = "" then sayPlain (p.graph.toDot {} none .idle none)
    else
      writeDot p.graph path {} none .idle none
      sayIn "green" ("DOT written to " ++ path)

/-- Runs the command. -/
def run (args : List String) : Session Ending :=
  withArguments manual args fun given => do
    match ← attempt (fun e => e.isMissing || e.isCompile)
        (do loadProgram (← pathOf given "--file")) with
    | .error e =>
      sayIn "red" ("Error: " ++ Markup.escape e.message)
      pure (.returned 1)
    | .ok p =>
      showProgram p given
      pure (.returned 0)

end TapeMachine.Command.Inspect
