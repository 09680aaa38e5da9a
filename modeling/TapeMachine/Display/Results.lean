import TapeMachine.Display.MachineView
import TapeMachine.Suite

/-!
# The results of a suite
-/

namespace TapeMachine.Suite

/-- An input as a cell shows it. -/
def inputText (input : String) : Text.Loose :=
  if input = "" then "<empty>" else Markup.escape input

/-- The table of cases and their verdicts. -/
def results (cases : List Case) : Drawing where
  title := none
  headers := ["#", "Input", "Verdict"]
  rows := cases.map fun c =>
    [.markup (toString c.id), .markup (inputText c.input),
      .markup (Markup.tagged c.status.colour c.status.name)]

end TapeMachine.Suite
