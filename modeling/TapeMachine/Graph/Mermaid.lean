import TapeMachine.Graph.Basic
import TapeMachine.Graph.Theme

/-!
# Mermaid flowcharts

A state graph as the text of a Mermaid flowchart: a line for each node, a line for each edge, then
the styles. The current state is filled if it is a node, and the active edge, given by its place in
the list of edges, is drawn thick if there is one at that place.
-/

namespace TapeMachine.Graph.Mermaid

/-- The identifier of a state. A few bare words, such as `end`, are reserved by the language. -/
def nodeId (s : State) : String := "s_" ++ s

/-- A label with its double quotes replaced by character references. -/
def escape (label : String) : String :=
  String.ofList (label.toList.flatMap fun c => if c = '"' then "#quot;".toList else [c])

/-- The line that declares a node; the accepting state has a third ring. -/
def nodeLine (s : State) : String :=
  if s = acceptState then "  " ++ nodeId s ++ "(((" ++ s ++ ")))"
  else "  " ++ nodeId s ++ "((" ++ s ++ "))"

/-- The line that draws an edge. -/
def edgeLine (e : Edge) : String :=
  "  " ++ nodeId e.source ++ " -->|\"" ++ escape e.label ++ "\"| " ++ nodeId e.target

/-- The style that all nodes have. -/
def defaultStyle : String :=
  "  classDef default fill:#ffffff,stroke:" ++ Theme.stroke ++ ",color:" ++ Theme.text ++ ";"

/-- The lines that fill the current state. -/
def currentStyle (g : Graph) (current : Option State) (status : Status) : List String :=
  match current with
  | some s =>
    if s ∈ g.nodes then
      ["  classDef current fill:" ++ Theme.ofStatus status ++ ",stroke:" ++ Theme.ofStatus status
          ++ ",color:#ffffff;",
        "  class " ++ nodeId s ++ " current;"]
    else []
  | none => []

/-- The line that thickens the active edge. -/
def activeStyle (g : Graph) (active : Option Int) : List String :=
  match active with
  | some i =>
    if 0 ≤ i ∧ i < g.edges.length then
      ["  linkStyle " ++ toString i ++ " stroke:" ++ Theme.primary ++ ",stroke-width:3px;"]
    else []
  | none => []

/-- The lines of a flowchart. -/
def lines (g : Graph) (current : Option State) (status : Status) (active : Option Int) :
    List String :=
  ["graph LR"] ++ g.nodes.map nodeLine ++ g.edges.map edgeLine ++ [defaultStyle]
    ++ currentStyle g current status ++ activeStyle g active

end Mermaid

/-- The flowchart of a graph, with the current state and the active edge, if any. -/
def toMermaid (g : Graph) (current : Option State) (status : Status) (active : Option Int) :
    String :=
  "\n".intercalate (Mermaid.lines g current status active)

end TapeMachine.Graph
