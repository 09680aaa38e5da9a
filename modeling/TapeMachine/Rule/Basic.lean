import TapeMachine.Alphabet

/-!
# Rules

A rule says what a machine does in one state on one symbol: what it writes, where the head moves,
and which state comes next. It remembers the line that it was read from.
-/

namespace TapeMachine

/-- The name under which a state and a symbol are looked up. -/
def lookupKey (state : State) (symbol : Symbol) : String := state ++ ":" ++ symbol

/-- A rule of a program; its line is counted from zero. -/
structure Rule where
  source : State
  read : Symbol
  write : Symbol
  move : String
  target : State
  line : Int
  deriving DecidableEq, Repr

namespace Rule

/-- The name under which the rule is looked up. -/
def key (r : Rule) : String := lookupKey r.source r.read

/-- The action of the rule, as diagrams show it. -/
def label (r : Rule) : String := r.read ++ "/" ++ r.write ++ "," ++ r.move

end Rule

end TapeMachine
