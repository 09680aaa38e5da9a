import TapeMachine.Machine.History
import TapeMachine.Program
import TapeMachine.Status
import TapeMachine.Tape

/-!
# Machines

A machine runs a table on a one-way tape, a step at a time. It never runs by itself: `step` makes
one step, `stepBack` takes one back, and `run` steps until the machine halts or a bound is reached.
Every step first puts the configuration it starts from into a bounded history, which is what
`stepBack` restores.

A table put together by hand may name a move that is no direction. A step that meets one goes no
further than the history; `fault?` tells beforehand that this will happen.
-/

namespace TapeMachine

/-- Why a machine rejected. -/
inductive Rejection where
  /-- No transition applies. -/
  | noTransition (state : State) (mark : Mark)
  /-- The head would have left the tape. -/
  | leftEnd
  deriving DecidableEq, Repr

/-- The reason in words. -/
def Rejection.message : Rejection → Text.Loose
  | .noTransition state mark => "No transition for (" ++ state ++ ", " ++ mark ++ ")"
  | .leftEnd => "Crash: head moved past the left end of the tape."

/-- What a step can be taken back to. -/
structure Snapshot where
  tape : Tape
  head : Nat
  /-- The head was put there by a truth value. -/
  headAsTruth : Bool
  state : State
  status : Status
  stepCount : Nat
  deriving DecidableEq

/-- A machine: its program, its configuration, and how it got there. -/
structure Machine where
  table : Table
  graph : Graph
  history : History Snapshot
  input : Text.Loose
  tape : Tape
  head : Nat
  /-- The head was put there by a truth value, and has not moved since. Such a position is the cell
  one or zero, and is told as the truth value. -/
  headAsTruth : Bool
  state : State
  status : Status
  stepCount : Nat
  lastError : Option Rejection
  deriving DecidableEq

/-- Requests that a machine refuses. -/
inductive MachineError where
  /-- The head cannot be put to the left of cell zero. -/
  | negativeHead (position : Int)
  /-- A history cannot have fewer than no values. -/
  | negativeCapacity
  /-- The bound on a history has to fit into a machine word. -/
  | wideCapacity
  deriving DecidableEq, Repr

/-- The refusal in words. -/
def MachineError.message : MachineError → String
  | .negativeHead position =>
    "Head position must be non-negative, got " ++ toString position ++ "."
  | .negativeCapacity => "maxlen must be non-negative"
  | .wideCapacity => "Python int too large to convert to C ssize_t"

/-- The greatest integer in a machine word. -/
def greatestWord : Int := 9223372036854775807

/-- Does an integer fit into a machine word? -/
def fitsWord (n : Int) : Bool := -greatestWord - 1 ≤ n && n ≤ greatestWord

/-- A bound on histories, checked. -/
def capacity? : Option Int → Except MachineError (Option Nat)
  | none => .ok none
  | some n =>
    if !fitsWord n then .error .wideCapacity
    else if n < 0 then .error .negativeCapacity
    else .ok (some n.toNat)

namespace Machine

/-! ## Making machines -/

/-- The number of snapshots that a history holds if nothing else is said. -/
def defaultCapacity : Nat := 2000

/-- A machine with a table, ready to run on the empty input. -/
def ofTable (table : Table) (capacity : Option Nat) : Machine where
  table := table
  graph := Graph.ofTable table
  history := .empty capacity
  input := ""
  tape := .empty
  head := 0
  headAsTruth := false
  state := startState
  status := .idle
  stepCount := 0
  lastError := none

/-- Goes back to the start state, forgetting the steps made so far. -/
def restart (m : Machine) : Machine :=
  { m with
    state := startState
    stepCount := 0
    status := .idle
    lastError := none
    history := m.history.clear }

/-- Puts an input on the tape and starts over. -/
def load (m : Machine) (input : Text.Loose) : Machine :=
  restart { m with input := input, tape := .ofInput input, head := 0, headAsTruth := false }

/-- Puts the head on a cell and starts over with the tape as it is. -/
def setHead (m : Machine) (position : Int) : Except MachineError Machine :=
  if position < 0 then .error (.negativeHead position)
  else .ok (restart { m with head := position.toNat, headAsTruth := false })

/-- Puts the head on the cell that a truth value stands for and starts over. -/
def setHeadTruth (m : Machine) (position : Bool) : Machine :=
  restart { m with head := position.toNat, headAsTruth := true }

/-- Takes another program and starts over with the input loaded last. -/
def install (m : Machine) (program : Program) : Machine :=
  load { m with table := program.table, graph := program.graph } m.input

/-- Takes the program that a text holds; a text without one changes nothing. -/
def compile (m : Machine) (source : String) : Except CompileError Machine :=
  match Program.ofSource source with
  | .ok program => .ok (m.install program)
  | .error e => .error e

/-- Changes the bound on the history, keeping the newest snapshots. -/
def setCapacity (m : Machine) (capacity : Option Int) : Except MachineError Machine :=
  match capacity? capacity with
  | .ok c => .ok { m with history := m.history.resize c }
  | .error e => .error e

/-- Says that the machine runs, unless it has halted. -/
def play (m : Machine) : Machine :=
  if m.status.isTerminal then m else { m with status := .running }

/-- Says that the machine pauses, if it was running. -/
def pause (m : Machine) : Machine :=
  if m.status = .running then { m with status := .paused } else m

/-! ## Stepping -/

/-- The mark under the head. -/
def mark (m : Machine) : Mark := m.tape.read m.head

/-- The configuration that a step starts from. -/
def snapshot (m : Machine) : Snapshot :=
  ⟨m.tape, m.head, m.headAsTruth, m.state, m.status, m.stepCount⟩

/-- The machine with its configuration put into the history. -/
def remember (m : Machine) : Machine := { m with history := m.history.push m.snapshot }

/-- The machine, rejecting for a reason. -/
def reject (m : Machine) (why : Rejection) : Machine :=
  { m with status := .rejected, lastError := some why }

/-- The machine after a transition that takes its head to a position. -/
def fire (m : Machine) (t : Transition) (head : Nat) : Machine :=
  { m with
    tape := m.tape.write m.head t.write
    head := head
    headAsTruth := false
    state := t.target
    stepCount := m.stepCount + 1
    status := if t.target = acceptState then .accepted else m.status }

/-- The transition that the next step would make, if one applies. -/
def activeTransition? (m : Machine) : Option Transition :=
  if m.status.isTerminal then none else (m.table.lookup m.state m.mark).transition?

/-- The move of the next step, if it is no direction. -/
def fault? (m : Machine) : Option String :=
  match m.activeTransition? with
  | some t => if t.direction?.isNone then some t.move else none
  | none => none

/-- One step. A machine that has halted stays as it is. -/
def step (m : Machine) : Machine :=
  if m.status.isTerminal then m
  else match m.table.lookup m.state m.mark with
    | .implicitAccept => { m.remember with status := .accepted }
    | .implicitReject => m.remember.reject (.noTransition m.state m.mark)
    | .matched t =>
      match t.direction? with
      -- `fault?` has told that this step fails
      | none => m.remember
      | some direction =>
        match direction.from? m.head with
        | none => m.remember.reject .leftEnd
        | some head => m.remember.fire t head

/-- Takes the last step back; without a history nothing changes. -/
def stepBack (m : Machine) : Machine :=
  match m.history.pop? with
  | none => m
  | some (s, history) =>
    { m with
      history := history
      tape := s.tape
      head := s.head
      headAsTruth := s.headAsTruth
      state := s.state
      stepCount := s.stepCount
      status := .paused
      lastError := none }

/-- Where a run ended: the machine, the steps that were asked of it, and the move that is no
direction if one stopped the run. -/
structure Run where
  machine : Machine
  calls : Nat
  fault : Option String

/-- Steps until the machine halts or `bound` further steps were asked of it. -/
def runFrom (calls bound : Nat) (m : Machine) : Run :=
  match bound with
  | 0 => ⟨m, calls, none⟩
  | bound + 1 =>
    if m.status.isTerminal then ⟨m, calls, none⟩
    else match m.fault? with
      | some move => ⟨m.step, calls, some move⟩
      | none => runFrom (calls + 1) bound m.step

/-- Steps until the machine halts or the bound is reached. A negative bound allows no step. -/
def run (m : Machine) (bound : Int) : Run := runFrom 0 bound.toNat m

/-- The bound of a run if nothing else is said. -/
def defaultRunBound : Nat := 10000

/-! ## Views -/

/-- Has the machine accepted or rejected? -/
def halted (m : Machine) : Bool := m.status.isTerminal

/-- The cells around the head. -/
def window (m : Machine) (radius : Int) : List (Nat × Mark) := m.tape.window m.head radius

/-- The number of cells shown on either side of the head if nothing else is said. -/
def defaultRadius : Nat := 7

end Machine

end TapeMachine
