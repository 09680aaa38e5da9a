import TapeMachine.Command.EditConfig
import TapeMachine.Display.Results
import TapeMachine.Graph.Mermaid
import TapeMachine.Journal.Entry
import TapeMachine.Machine.Playback
import TapeMachine.Suite.Inputs

/-!
# The interactive simulator

A machine is shown, a menu is offered, and the choice is carried out, over and over until the user
leaves. Every turn takes at least one answer, so there are no more turns than answers.
-/

namespace TapeMachine.Command

open Session

/-- What the simulator works on. -/
structure Simulator where
  machine : Machine
  config : Config
  configPath : String
  journal : Journal
  /-- The inputs of the suite that was run last. -/
  inputs : List String

namespace Simulator

/-- The lines of the menu. -/
def menu : List String :=
  ["\n[bold cyan]Turing Machine Simulator[/bold cyan]", "[1] Step forward", "[2] Step back",
    "[3] Play until halt", "[4] Load input", "[5] Move head", "[6] Load machine file",
    "[7] Run test suite", "[8] Show diagram (Mermaid)", "[9] Edit config", "[0] Exit"]

/-- What the user chooses from. -/
def choices : List String := ["0", "1", "2", "3", "4", "5", "6", "7", "8", "9"]

/-- The question that ends the menu. -/
def choiceQuestion : Question := ⟨.text, "\nChoose an option", .str "1", choices⟩

/-- Shows the machine and the menu, and asks for a choice. -/
def choose (s : Simulator) : Session Json := do
  showMachine s.config s.machine
  for line in menu do
    say line
  ask choiceQuestion

/-- Makes a pause, if it has a length. -/
def pauseFor : Option Int → Session PauseEnd
  | none => pure .endless
  | some length => do
    modify fun w => { w with pauses := w.pauses + 1 }
    emit (.paused length)
    let w ← get
    pure (if w.interruptAt = some w.pauses then .interrupted else .over)

/-- Plays the machine until it halts or a pause is interrupted. -/
def play (s : Simulator) : Session Simulator := do
  let interval := s.config.int .playInterval
  let (m, ending) ← s.machine.playOn (showMachine s.config)
    (pauseFor (Playback.pauseLength? interval)) interval (← get).patience
  match ending with
  | .halted | .interrupted => pure { s with machine := m }
  | .fault move => throw (.move ⟨move⟩)
  | .offBeat e => throw (.beat e)
  | .unfinished => throw .unfinished

/-- Puts marks on the tape that came as an answer other than a text, and shows them. They cannot be
the input of a run, since the status line shows inputs as text. -/
def showMarks (s : Simulator) (answer : Json) (marks : List Mark) : Session Simulator := do
  showTape s.config { s.machine.load "" with tape := .ofMarks marks }
  throw (.noMarkup answer)

/-- Asks for an input and loads it. -/
def loadInput (s : Simulator) : Session Simulator := do
  match ← ask ⟨.text, "Input", .str s.machine.input, []⟩ with
  | .str input => pure { s with machine := s.machine.load input }
  | .arr items => s.showMarks (.arr items) (items.map Json.shown)
  | .obj fields => s.showMarks (.obj fields) (fields.map (·.1))
  | answer => throw (.noSymbols answer)

/-- Asks for a position and puts the head there. A number with a fraction could only be told from a
position when the tape is shown, and one below zero is refused as any other is. -/
def moveHead (s : Simulator) : Session Simulator := do
  match ← ask ⟨.integer, "Head position", Journal.headValue s.machine, []⟩ with
  | .int n =>
    match s.machine.setHead n with
    | .ok m => pure { s with machine := m }
    | .error _ => refuse
  | .bool b => pure { s with machine := s.machine.setHeadTruth b }
  | .real x => if x.isNegative then refuse else throw (.noWholeNumber (.real x))
  | answer => throw (.noInteger answer)
where
  refuse : Session Simulator := do
    sayIn "red" "Head position must be 0 or more."
    pure s

/-- What is wrong with a program's place that is no path. An integer is the number of an open file,
and there are none. -/
def placeFault : Json → Fault
  | .bool _ => .file .noHandle
  | .int n =>
    if n < -2147483648 || 2147483647 < n then .noPath (.int n)
    else if n < 0 then .file .negativeHandle
    else .file .noHandle
  | answer => .noPath answer

/-- The text of the program that an answer names. What counts as no means the bundled one. -/
def programNamed : Json → Session String
  | .str path => programText path
  | answer => if isYes answer then throw (placeFault answer) else pure Sample.palindrome

/-- Asks for a program file and loads it. If that fails, the program stays as it is. -/
def loadMachine (s : Simulator) : Session Simulator := do
  let answer ← ask ⟨.text, "Machine file (empty for the palindrome sample)",
    (s.config.value? .machineFile).getD (.str ""), []⟩
  match ← compileProgram s.machine (programNamed answer) with
  | .error e =>
    sayIn "red" ("Could not load machine: " ++ Markup.escape e.message)
    sayIn "yellow" "Keeping the previously loaded machine."
    pure s
  | .ok m =>
    sayIn "green" ("Compiled " ++ toString m.table.size ++ " transitions over "
      ++ toString m.graph.nodes.length ++ " states.")
    pure { s with machine := m, config := s.config.set .machineFile answer }

/-- Asks for inputs and runs them as a suite. -/
def runSuite (s : Simulator) : Session Simulator := do
  match ← ask ⟨.text, "Inputs (comma separated, '-' for empty)",
      .str (Suite.writeInputs s.inputs), []⟩ with
  | .str line =>
    let inputs := Suite.readInputs line.mended
    let cases ← ofResult .move
      (Suite.run s.machine.table (Suite.cases inputs) (s.config.int .maxBatchSteps))
    draw (Suite.results cases)
    let j ← rotateJournal s.journal
    writeJournal j .main [.obj (("source", .str (sourceName (s.config.text .machineFile)))
      :: Journal.summaryFields (Suite.summarize cases))]
    pure { s with journal := j, inputs := inputs }
  | answer => throw (.noLine answer)

/-- Shows the flowchart of the program. -/
def showDiagram (s : Simulator) : Session Simulator := do
  let m := s.machine
  sayPlain (m.graph.toMermaid m.state m.status (m.activeTransition?.map (·.index)))
  pure s

/-- Asks for settings. A new bound on the history counts at once. -/
def edit (s : Simulator) : Session Simulator := do
  let edited ← editConfig s.config (saveConfig · s.configPath) fun config => do
    let m ← ofResult .machine (s.machine.setCapacity (some (config.int .maxHistory)))
    pure { s with config := config, machine := m }
  pure (edited.getD s)

/-- Writes to the journal how the run of a program ended. -/
def logRun (j : Journal) (m : Machine) (source : Json) : Session Unit := do
  let now ← readClock
  writeJournal j .main [Journal.runEntry m source now.stamp]

/-- Takes leave. A run that made steps can be logged. -/
def leave (s : Simulator) : Session Unit := do
  if s.machine.stepCount ≠ 0 then
    if ← askYesNo "Log this run?" false then
      logRun s.journal s.machine (.str (sourceName (s.config.text .machineFile)))
  say "[bold green]Goodbye![/bold green]"

/-- Carries out a choice; without a simulator the session is over. -/
def carryOut (s : Simulator) (choice : Json) : Session (Option Simulator) :=
  match choice with
  | .str "1" => pure (some { s with machine := s.machine.step })
  | .str "2" => pure (some { s with machine := s.machine.stepBack })
  | .str "3" => some <$> s.play
  | .str "4" => some <$> s.loadInput
  | .str "5" => some <$> s.moveHead
  | .str "6" => some <$> s.loadMachine
  | .str "7" => some <$> s.runSuite
  | .str "8" => some <$> s.showDiagram
  | .str "9" => some <$> s.edit
  | .str "0" => do s.leave; pure none
  | _ => pure (some s)

/-- One turn. -/
def turn (s : Simulator) : Session (Option Simulator) := do
  s.carryOut (← s.choose)

/-- As many turns as `fuel` allows. -/
def turns : (fuel : Nat) → Simulator → Session Unit
  | 0, _ => throw (.noAnswer choiceQuestion)
  | fuel + 1, s => do
    match ← s.turn with
    | some s => turns fuel s
    | none => pure ()

/-- The simulator that a configuration asks for. A program that cannot be loaded is reported, and
the machine has none. -/
def start (config : Config) (path : String) : Session Simulator := do
  let j ← openJournal (config.text .outputDirectory) (config.text .logPrefix)
  let fresh := (← machineFor config).load (config.text .defaultInput)
  let file := config.text .machineFile
  let m ← match ← compileProgram fresh (programText file) with
    | .ok m => pure m
    | .error e =>
      sayIn "red"
        ("Could not load " ++ sourceName file ++ ": " ++ Markup.escape e.message)
      pure fresh
  pure ⟨m, config, path, j, Sample.inputs⟩

/-- Runs the simulator until the user leaves. -/
def run (config : Config) (path : String) : Session Unit := do
  let s ← start config path
  turns ((← get).answers.length + 1) s

end Simulator

end TapeMachine.Command
