import TapeMachine.Console.Event
import TapeMachine.Files.Tree

/-!
# The world of a command

All that a command can see and change, as a value: files, the answers that will be given, the
readings of the clock, and what was shown so far.
-/

namespace TapeMachine

/-- A reading of the clock: the day, and the moment with its time zone. -/
structure Reading where
  day : String
  stamp : String
  deriving DecidableEq, Repr

/-- The readings that the clock will give. The last one is given over and over. -/
structure Clock where
  next : Reading
  later : List Reading
  deriving DecidableEq, Repr

/-- The clock after a reading. -/
def Clock.tick (c : Clock) : Clock :=
  match c.later with
  | [] => c
  | r :: rest => ⟨r, rest⟩

/-- The world of a command. -/
structure World where
  files : Files.Tree
  answers : List Json := []
  clock : Clock
  /-- The number of the pause that is interrupted, counted from one. -/
  interruptAt : Option Nat := none
  /-- The most steps that are made while one machine is played. -/
  patience : Nat
  /-- The pauses made so far. -/
  pauses : Nat := 0
  events : Array Event := #[]
  /-- The lines written to the standard output. -/
  output : Array Text.Loose := #[]

end TapeMachine
