import TapeMachine.Command.Usage
import TapeMachine.Console.Session
import TapeMachine.Display.MachineView
import TapeMachine.Sample

/-!
# What the commands share
-/

namespace TapeMachine.Command

open Session

/-- How a command ended. -/
inductive Ending where
  /-- It came to its end, with this status. -/
  | returned (status : Nat)
  /-- It left with this status. -/
  | exited (status : Nat)
  /-- It came to its end and tells nothing. -/
  | finished
  deriving DecidableEq, Repr

/-- The status that a command reports to whoever runs it. -/
def Ending.status : Ending → Nat
  | .returned status => status
  | .exited status => status
  | .finished => 0

/-- Runs a command with its switches, or does not run it. If it is asked how it is used, it tells
that. -/
def withArguments (manual : Manual) (args : List String)
    (command : Given → Session Ending) : Session Ending := do
  match readArguments manual.switches args with
  | .ok given => command given
  | .error refusal =>
    if refusal = .help then
      for line in manual.lines do
        writeLine line
    pure (.exited refusal.status)

/-- What a switch without a value holds. -/
def noValue : Json := .arr []

/-- The path that a required switch names. -/
def pathOf (given : Given) (name : String) : Session String :=
  match given.text? name with
  | some path => pure path
  | none => throw (.noPath noValue)

/-- The program in a file. The path is shown, and followed, in its plain spelling. -/
def loadProgram (path : String) : Session Program := do
  let path := Files.normal path
  if !(← isPresent path) then throw (.noProgramFile path)
  ofResult .ofCompile (Program.ofSource (← readText path))

/-- The text of the program at a path; the empty path means the bundled one. -/
def programText (path : Text.Loose) : Session String :=
  if path = "" then pure Sample.palindrome else readText path

/-- Loads a program into a machine, or says why that cannot be done. -/
def compileProgram (m : Machine) (text : Session String) : Session (Except Fault Machine) :=
  attempt (fun e => e.isRefusal || e.isCompile) do
    ofResult .ofCompile (m.compile (← text))

/-- A step bound; zero means the one in the configuration. -/
def boundOr (config : Config) : Option Int → Int
  | none | some 0 => config.int .maxBatchSteps
  | some n => n

/-- How a program is named in journals. -/
def sourceName (path : Text.Loose) : Text.Loose := if path = "" then "sample" else path

/-- The machine that a configuration asks for, without a program. -/
def machineFor (config : Config) : Session Machine := do
  pure (.ofTable .empty (← ofResult .machine (capacity? (some (config.int .maxHistory)))))

/-- Shows the tape of a machine. -/
def showTape (config : Config) (m : Machine) : Session Unit := do
  draw (← ofResult .longInteger (m.drawTape (config.int .tapeWindow)))

/-- Shows the status line of a machine. -/
def showStatus (m : Machine) : Session Unit := do
  say (← ofResult .longInteger m.statusLine)

/-- Shows a machine. -/
def showMachine (config : Config) (m : Machine) : Session Unit := do
  showTape config m
  showStatus m

/-- Says something in a colour. -/
def sayIn (colour : String) (text : Text.Loose) : Session Unit := say (Markup.tagged colour text)

end TapeMachine.Command
