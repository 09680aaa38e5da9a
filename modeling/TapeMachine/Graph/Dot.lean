import TapeMachine.Graph.Basic
import TapeMachine.Graph.Theme

/-!
# Graphviz diagrams

A state graph as the text of a Graphviz digraph. A point marks where runs start. The current state
is filled, and every edge whose number is the active one is coloured.
-/

namespace TapeMachine.Graph.Dot

/-- How a diagram is named and laid out. -/
structure Layout where
  name : String := "TuringMachine"
  rankdir : String := "LR"
  deriving DecidableEq, Repr

/-- A label with a backslash in front of each backslash and double quote. -/
def escape (label : String) : String :=
  String.ofList (label.toList.flatMap fun c => if c = '\\' ∨ c = '"' then ['\\', c] else [c])

/-- A text between double quotes, as it stands. -/
def enclosed (s : String) : String := "\"" ++ s ++ "\""

/-- The lines in front of the nodes. -/
def head (layout : Layout) : List String :=
  ["digraph " ++ enclosed layout.name ++ " \x7b",
    "  rankdir=" ++ layout.rankdir ++ ";",
    "  node [shape=circle];",
    "  __start__ [shape=point];",
    "  __start__ -> " ++ enclosed startState ++ ";"]

/-- The attributes of a node. -/
def nodeAttributes (current : Option State) (status : Status) (s : State) : List String :=
  (if s = acceptState then "shape=doublecircle" else "shape=circle")
    :: if current = some s then
      ["style=filled, fillcolor=" ++ enclosed (Theme.ofStatus status)
        ++ ", fontcolor=" ++ enclosed "white"]
    else []

/-- The line of a node. -/
def nodeLine (current : Option State) (status : Status) (s : State) : String :=
  "  " ++ enclosed s ++ " [" ++ ", ".intercalate (nodeAttributes current status s) ++ "];"

/-- The attributes of an edge. -/
def edgeAttributes (active : Option Int) (e : Edge) : List String :=
  ("label=" ++ enclosed (escape e.label))
    :: if active = some e.index then
      ["color=" ++ enclosed Theme.primary, "fontcolor=" ++ enclosed Theme.primary, "penwidth=2"]
    else []

/-- The line of an edge. -/
def edgeLine (active : Option Int) (e : Edge) : String :=
  "  " ++ enclosed e.source ++ " -> " ++ enclosed e.target
    ++ " [" ++ ", ".intercalate (edgeAttributes active e) ++ "];"

/-- The lines of a diagram. -/
def lines (g : Graph) (layout : Layout) (current : Option State) (status : Status)
    (active : Option Int) : List String :=
  head layout ++ g.nodes.map (nodeLine current status) ++ g.edges.map (edgeLine active) ++ ["\x7d"]

end Dot

/-- The diagram of a graph, with the current state and the active number, if any. -/
def toDot (g : Graph) (layout : Dot.Layout) (current : Option State) (status : Status)
    (active : Option Int) : String :=
  "\n".intercalate (Dot.lines g layout current status active)

end TapeMachine.Graph
