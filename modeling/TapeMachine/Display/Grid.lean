import TapeMachine.Display.Drawing
import TapeMachine.Display.Markup
import TapeMachine.Table.Basic

/-!
# The transition grid

A table drawn as a grid: a row for each state that a transition leaves, in order of appearance, and
a column for each symbol that one reads, in ascending order with the blank last. A cell shows what
is done, or a dash if nothing is.
-/

namespace TapeMachine.Grid

/-- May the first symbol stand to the left of the second? -/
def columnLE (a b : Symbol) : Bool :=
  if a = blank then b == blank else b == blank || decide (a ≤ b)

/-- The symbols that a table reads, each once, in the order of the columns. -/
def columns (table : Table) : List Symbol :=
  (distinct (table.transitions.map (·.read))).mergeSort columnLE

/-- The states that a transition leaves, each once, in order of appearance. -/
def states (table : Table) : List State := distinct (table.transitions.map (·.source))

/-- The text of a transition in the grid. -/
def action (t : Transition) : String := t.write ++ "," ++ t.move ++ " " ++ t.target

/-- The cell of a state and a symbol. -/
def cell (table : Table) (state : State) (symbol : Symbol) : Cell :=
  match table.lookup state symbol with
  | .matched t => .markup (Markup.escape (action t))
  | _ => .markup "-"

end Grid

/-- The grid of a table. -/
def Table.grid (table : Table) : Drawing :=
  let columns := Grid.columns table
  { title := some "Transition Table"
    headers := "State" :: columns.map fun (symbol : Symbol) => Markup.escape symbol
    rows := (Grid.states table).map fun (state : State) =>
      .markup state :: columns.map (Grid.cell table state) }

end TapeMachine
