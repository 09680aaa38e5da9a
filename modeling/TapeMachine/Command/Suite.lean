import TapeMachine.Command.Basic
import TapeMachine.Display.Results
import TapeMachine.Journal.Entry
import TapeMachine.Suite.Inputs

/-!
# Running a suite

The command runs every input of a file, each on a line of its own, and shows the verdicts as a
table or writes them as JSON, one on a line. Verdicts and their summary go to the journal.
-/

namespace TapeMachine.Command.Suite

open Session TapeMachine.Suite

/-- How the command is used. -/
def manual : Manual where
  purpose := "Evaluate a list of inputs against a Turing machine."
  switches :=
    [⟨"--file", .text, true, "Machine source file"⟩,
      ⟨"--inputs", .text, true, "Path to inputs file (one input per line)"⟩,
      ⟨"--config", .text, false, "Runtime config JSON (defaults apply when omitted)"⟩,
      ⟨"--max_steps", .integer, false, "Override the iteration bound per input"⟩,
      ⟨"--json", .nothing, false, "Print results as JSON lines instead of a table"⟩]

/-- The inputs in a file, one on each line. -/
def loadInputs (path : String) : Session (List String) := do
  pure (Text.lines (← readText path))

/-- Runs inputs in batches, with a progress bar. -/
def runInputs (table : Table) (inputs : List String) (bound : Int) (visible : Bool)
    (batchSize : Int) : Session (List Case) := do
  emit (.progress visible)
  emit (.task "[cyan]Evaluating..." inputs.length)
  let batches ← ofResult .batch (batches batchSize inputs)
  let cases ← ofResult .move (runBatches table bound batches)
  for batch in batches do
    emit (.advanced batch.length)
  pure cases

/-- Writes cases and their summary to a journal. -/
def logCases (j : Journal) (program : String) (cases : List Case) : Session Summary := do
  let now ← readClock
  let entries (status : Status) :=
    (cases.filter (·.status == status)).map (Journal.caseEntry program now.stamp)
  writeJournal j .accepted (entries .accepted)
  writeJournal j .rejected (entries .rejected)
  let summary := summarize cases
  writeJournal j .main [.obj (("machine", .str program) :: ("timestamp", .str now.stamp)
    :: Journal.summaryFields summary)]
  pure summary

/-- The line of JSON for a case. -/
def caseLine (c : Case) : String :=
  (Json.obj [("id", .int c.id), ("input", .str c.input), ("status", .str c.status.name)]).compact

/-- The line that sums up a suite. -/
def summaryText (s : Summary) : Text.Loose :=
  Markup.tagged "green" (toString s.accepted ++ " accepted") ++ ", "
    ++ Markup.tagged "red" (toString s.rejected ++ " rejected") ++ " of " ++ toString s.total ++ "."

/-- Is this a fault that the command reports itself? Those are all but what the system refuses for
another reason than that a file does not exist, and texts that are nested too deep. -/
def isReported (e : Fault) : Bool := e.isMissing || (!e.isRefusal && !e.isTooDeep)

/-- What the command says about a fault. -/
def faultText (e : Fault) : Text.Loose :=
  (if e.isCompile then "Compile error: " else "Error: ") ++ Markup.escape e.message

/-- The configuration, the program and the inputs that the switches name. -/
def load (given : Given) : Session (Config × Program × List String) := do
  let config ← match given.get? "--config" with
    | some (some path) => loadConfig path
    | some none => throw (.noPathToLookFor noValue)
    | none => pure Config.defaults
  let program ← loadProgram (← pathOf given "--file")
  let inputs ← loadInputs (← pathOf given "--inputs")
  pure (config, program, inputs)

/-- Runs a suite that has been loaded. -/
def runLoaded (given : Given) (config : Config) (program : Program) (inputs : List String) :
    Session Unit := do
  let asJson := given.has "--json"
  let bound := boundOr config (given.integer? "--max_steps")
  let cases ← runInputs program.table inputs bound (!asJson) defaultBatchSize
  let j ← openJournal (config.text .outputDirectory) (config.text .logPrefix)
  let j ← rotateJournal j
  let summary ← logCases j ((given.text? "--file").getD "") cases
  if asJson then
    for c in cases do
      writeLine (caseLine c)
  else
    draw (results cases)
    say (summaryText summary)

/-- Runs the command. -/
def run (args : List String) : Session Ending :=
  withArguments manual args fun given => do
    match ← attempt isReported (load given) with
    | .error e =>
      sayIn "red" (faultText e)
      pure (.returned 1)
    | .ok (config, program, inputs) =>
      runLoaded given config program inputs
      pure (.returned 0)

end TapeMachine.Command.Suite
