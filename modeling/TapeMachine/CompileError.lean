import TapeMachine.Alphabet

/-!
# Why a program is refused

Lines are numbered from one in messages. Two of the three causes belong to a line, and their
messages start with its number.
-/

namespace TapeMachine

/-- The causes for which a program text is refused. -/
inductive CompileError where
  /-- A line, given without the white space around it, is no rule. -/
  | malformed (text : String) (line : Int)
  /-- There is no rule at all. -/
  | empty
  /-- A second rule for a state and a symbol; `first` is the line of the first one. -/
  | duplicate (state : State) (symbol : Symbol) (first line : Int)
  deriving DecidableEq, Repr

namespace CompileError

/-- The cause in words, without the line. -/
def detail : CompileError → String
  | .malformed text _ => "Syntax error in '" ++ text ++ "'"
  | .empty => "No valid states found."
  | .duplicate state symbol first _ =>
    "Duplicate transition for (" ++ state ++ ", " ++ symbol ++ "), already defined on line "
      ++ toString first

/-- The line that the cause belongs to. -/
def line? : CompileError → Option Int
  | .malformed _ line => some line
  | .empty => none
  | .duplicate _ _ _ line => some line

/-- The lines that the message names. -/
def lines : CompileError → List Int
  | .malformed _ line => [line]
  | .empty => []
  | .duplicate _ _ first line => [first, line]

/-- The whole message. -/
def message (e : CompileError) : String :=
  match e.line? with
  | some line => "Line " ++ toString line ++ ": " ++ e.detail
  | none => e.detail

end CompileError

end TapeMachine
