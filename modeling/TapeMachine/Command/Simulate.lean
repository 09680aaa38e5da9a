import TapeMachine.Command.Interactive

/-!
# Simulating a machine

With an input on the command line, the command runs it, shows the machine and logs the run; its
status tells whether the input was accepted. Without one, it is the interactive simulator.
-/

namespace TapeMachine.Command.Simulate

open Session

/-- How the command is used. -/
def manual : Manual where
  purpose := "Turing Machine Simulator"
  switches :=
    [⟨"--config", .text, false, "Runtime config JSON"⟩,
      ⟨"--file", .text, false, "Machine source file (defaults to the palindrome sample)"⟩,
      ⟨"--input", .text, false, "Run this input to completion and exit"⟩,
      ⟨"--max_steps", .integer, false, "Step bound for --input runs"⟩]

/-- The configuration at a path, or the defaults if nothing is there. -/
def configAt (path : String) : Session Config := do
  if ← isPresent (Files.normal path) then loadConfig path else pure Config.defaults

/-- Runs one input. If there is none, although it was asked for, the empty one is run and its tape
is shown, but not its status. -/
def runOne (config : Config) (file : String) (input : Option String) (bound : Option Int) :
    Session Nat := do
  let fresh := (← machineFor config).load (input.getD "")
  let path : Text.Loose := if file = "" then config.text .machineFile else file
  match ← compileProgram fresh (programText path) with
  | .error e =>
    sayIn "red" ("Compile error: " ++ Markup.escape e.message)
    pure 1
  | .ok m =>
    let ended := m.run (boundOr config bound)
    if let some move := ended.fault then throw (.move ⟨move⟩)
    showTape config ended.machine
    if input.isNone then throw (.noMarkup noValue)
    showStatus ended.machine
    let j ← openJournal (config.text .outputDirectory) (config.text .logPrefix)
    Simulator.logRun j ended.machine (.str (sourceName file))
    pure (if ended.machine.status = .accepted then 0 else 2)

/-- Runs the command. -/
def run (args : List String) : Session Ending :=
  withArguments manual args fun given => do
    let path ← if given.has "--config" then pathOf given "--config" else pure Config.defaultPath
    let file := (given.text? "--file").getD ""
    let config ← configAt path
    match given.get? "--input" with
    | some input => .exited <$> runOne config file input (given.integer? "--max_steps")
    | none =>
      Simulator.run (if file = "" then config else config.set .machineFile (.str file)) path
      pure .finished

end TapeMachine.Command.Simulate
