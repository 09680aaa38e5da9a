import TapeMachine.Table.Basic

/-!
# State graphs

The graph of a table has a node for each state and an edge for each transition. Parallel edges stay
apart, since each has a label and a number of its own.
-/

namespace TapeMachine

/-- An edge of a state graph. -/
structure Edge where
  source : State
  target : State
  label : String
  index : Int
  deriving DecidableEq, Repr

/-- The edge that a transition is drawn as. -/
def Transition.edge (t : Transition) : Edge := ⟨t.source, t.target, t.label, t.index⟩

/-- A state graph. -/
structure Graph where
  nodes : List State
  edges : List Edge
  deriving DecidableEq, Repr

namespace Graph

/-- The graph of a table: the states in order of first appearance, and an edge a transition. -/
def ofTable (table : Table) : Graph where
  nodes := distinct (table.transitions.flatMap fun t => [t.source, t.target])
  edges := table.transitions.map Transition.edge

end Graph

end TapeMachine
