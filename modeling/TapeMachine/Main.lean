import Std.Time
import TapeMachine.Command.Inspect
import TapeMachine.Command.Simulate
import TapeMachine.Command.Suite
import TapeMachine.Files.Change

/-!
# The command line

The first argument names the command: `inspect` shows a program, `suite` runs a suite, and anything
else is an argument of the simulator. A command is run in a world that holds the files named by
arguments and answers. When it needs another answer, the user is asked, and the command is run again
with all answers so far; what was shown before is not shown again. Files are written at the end.
-/

namespace TapeMachine.Main

open Std.Time

/-- The command that arguments name. -/
def command : List String → Session Command.Ending
  | "inspect" :: args => Command.Inspect.run args
  | "suite" :: args => Command.Suite.run args
  | args => Command.Simulate.run args

/-- The time now. -/
def readClock : IO Reading := do
  let now := PlainDateTime.ofWallTime ((← Timestamp.now).toWallTime TimeZone.Offset.zero)
  pure ⟨now.format "uuuu-MM-dd", now.format "uuuu-MM-dd'T'HH:mm:ss.SSSSSS" ++ "+00:00"⟩

/-- The tree with the file at a path, if there is one. -/
def addFile (tree : Files.Tree) (path : String) : IO Files.Tree := do
  try
    pure (tree.plant path (.file (← IO.FS.readBinFile path)))
  catch _ => pure tree

/-- Writes what changed. A file that was not known before grows by what was written to it. -/
def writeChanges (before after : Files.Tree) : IO Unit := do
  for (place, entry) in before.changes after do
    let path := (Files.Tree.pathOf place).mended
    match entry, before.find? place with
    | .directory, _ => IO.FS.createDirAll path
    | .file bytes, some _ => IO.FS.writeBinFile path bytes
    | .file bytes, none => IO.FS.withFile path .append fun h => h.write bytes

/-- A cell without its style. The terminal has no halves. -/
def cellText : Cell → String
  | .markup text => text.mended
  | .styled text _ => text.mended

/-- Shows an event on the terminal. -/
def showEvent : Event → IO Unit
  | .shown (.text s) _ => IO.println s.mended
  | .shown (.drawing d) _ => do
    if let some title := d.title then IO.println title
    IO.println ("\t".intercalate (d.headers.map (·.mended)))
    for row in d.rows do
      IO.println ("\t".intercalate (row.map cellText))
  | .paused milliseconds => IO.sleep milliseconds.toNat.toUInt32
  | .asked _ | .progress _ | .task _ _ | .advanced _ => pure ()

/-- The answer that a line gives to a question. -/
def answerOf (question : Question) (line : String) : Json :=
  if line = "" then .null
  else match question.kind with
    | .text => .str line
    | .integer => ((Text.Integer.read? line).map Json.int).getD .null
    | .yesNo => .bool (line = "y")

/-- Asks the user. There is no answer at the end of the input. -/
def askUser (question : Question) : IO (Option String) := do
  IO.print (question.prompt ++ " (" ++ question.default.shown.mended ++ "): ")
  (← IO.getStdout).flush
  let line ← (← IO.getStdin).getLine
  pure (if line = "" then none else some (Text.strip line))

/-- Runs a command to its end. `seen` and `written` count what was shown before. -/
partial def converse (session : Session Command.Ending) (world : World) (seen written : Nat) :
    IO UInt32 := do
  let (result, ended) := session.runIn world
  for event in ended.events.toList.drop seen do
    showEvent event
  for line in ended.output.toList.drop written do
    IO.println line.mended
  match result with
  | .ok ending =>
    writeChanges world.files ended.files
    pure ending.status.toUInt32
  | .error (.noAnswer question) =>
    match ← askUser question with
    | some line =>
      let files ← addFile world.files line
      converse session
        { world with files := files, answers := world.answers ++ [answerOf question line] }
        ended.events.size ended.output.size
    | none =>
      writeChanges world.files ended.files
      pure 1
  | .error fault =>
    writeChanges world.files ended.files
    IO.eprintln fault.message
    pure 1

/-- The most steps in one playback. -/
def patience : Nat := 100000

/-- Runs the command that the arguments name. -/
def runCommand (args : List String) : IO UInt32 := do
  let values := args.map fun arg => ((Command.cutAtEquals arg).2).getD arg
  let mut files := Files.Tree.empty
  for path in Config.defaultPath :: values do
    files ← addFile files path
  for path in Config.defaultPath :: values do
    if let .ok config := Config.load files path then
      if let .ok (.whole program) := Files.spelling (config.text .machineFile) then
        files ← addFile files program
  converse (command args) { files := files, clock := ⟨← readClock, []⟩, patience := patience } 0 0

end TapeMachine.Main

/-- Runs the command that the arguments name. -/
def main (args : List String) : IO UInt32 := TapeMachine.Main.runCommand args
