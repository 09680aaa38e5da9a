import TapeMachine.Graph.Basic
import TapeMachine.Rule.Source

/-!
# Programs

A program is a transition table with its state graph. It is made from rules, or from a text that
holds rules; either succeeds as a whole or is refused with a cause. At most one rule may apply to a
state and a symbol.
-/

namespace TapeMachine

/-- A transition table and its graph. -/
structure Program where
  table : Table
  graph : Graph
  deriving DecidableEq

namespace Program

/-- The first rule whose key an earlier rule has, together with that earlier rule. The earlier rules
are given by their keys. -/
def firstRepeat? (earlier : Std.ExtTreeMap String Rule) : List Rule → Option (Rule × Rule)
  | [] => none
  | r :: rest =>
    match earlier[r.key]? with
    | some first => some (first, r)
    | none => firstRepeat? (earlier.insert r.key r) rest

/-- The table of rules, numbered in order. -/
def tableOf (rules : List Rule) : Table :=
  .ofList (rules.zipIdx.map fun (r, index) => Transition.ofRule r index)

/-- The program made of rules. -/
def ofRules (rules : List Rule) : Except CompileError Program :=
  if rules.isEmpty then .error .empty
  else match firstRepeat? ∅ rules with
    | some (first, r) => .error (.duplicate r.source r.read (first.line + 1) (r.line + 1))
    | none => .ok ⟨tableOf rules, Graph.ofTable (tableOf rules)⟩

/-- The program that a text holds. -/
def ofSource (text : String) : Except CompileError Program := do
  ofRules (← readRules text)

end Program

end TapeMachine
