import TapeMachine.Status
import TapeMachine.Table.Basic
import TapeMachine.Tape

/-!
# Verdicts

`evaluate` decides an input with a loop of its own, which keeps nothing but the tape, the head and
the state. An input that is not accepted within the bound is rejected.
-/

namespace TapeMachine

/-- A transition was to be made whose move is no direction. -/
structure UnknownMove where
  move : String
  deriving DecidableEq, Repr

namespace Table

/-- The bound on iterations if nothing else is said. -/
def defaultBound : Nat := 5000

/-- Decides the configuration with at most `bound` iterations. -/
def evaluateFrom (table : Table) (bound : Nat) (tape : Tape) (head : Nat) (state : State) :
    Except UnknownMove Status :=
  match bound with
  | 0 => .ok .rejected
  | bound + 1 =>
    match table.lookup state (tape.read head) with
    | .implicitAccept => .ok .accepted
    | .implicitReject => .ok .rejected
    | .matched t =>
      match t.direction? with
      | none => .error ⟨t.move⟩
      | some direction =>
        match direction.from? head with
        | none => .ok .rejected
        | some next =>
          if t.target = acceptState then .ok .accepted
          else evaluateFrom table bound (tape.write head t.write) next t.target

/-- Decides an input: accepted or rejected. A bound of zero or below rejects everything. -/
def evaluate (table : Table) (input : Text.Loose) (bound : Int) : Except UnknownMove Status :=
  evaluateFrom table bound.toNat (.ofInput input) 0 startState

/-- Which of the inputs are accepted, in order. -/
def evaluateAll (table : Table) (inputs : List String) (bound : Int) :
    Except UnknownMove (List Bool) :=
  inputs.mapM fun (input : String) => (table.evaluate input bound).map (· == .accepted)

end Table

end TapeMachine
