import TapeMachine.CompileError
import TapeMachine.Config.Merge
import TapeMachine.Console.Event
import TapeMachine.Files.Text
import TapeMachine.Json.Reader
import TapeMachine.Machine.Playback
import TapeMachine.Suite

/-!
# Faults

Everything that can end a command early, as one type, so that a command can say which of it it
reports itself.
-/

namespace TapeMachine

/-- A reason why a command cannot go on. -/
inductive Fault where
  /-- A file cannot be read or written. -/
  | file (e : Files.FileError)
  /-- A text file is not encoded well. -/
  | encoding (e : Text.Utf8.Malformed)
  /-- A text is no JSON value. -/
  | json (e : Json.ReadError)
  /-- A value cannot be laid over a configuration. -/
  | unmergeable (e : Config.Unmergeable)
  /-- A configuration is refused. -/
  | config (e : Config.Invalid)
  /-- A configuration has no such setting. -/
  | noSetting (key : Config.Key)
  /-- There is no configuration file at a path. -/
  | noConfigFile (path : String)
  /-- There is no program file at a path. -/
  | noProgramFile (path : String)
  /-- A program text is refused. -/
  | compile (e : CompileError)
  /-- A machine refuses a request. -/
  | machine (e : MachineError)
  /-- A machine cannot be played on a beat. -/
  | beat (e : BeatError)
  /-- A transition has a move that is no direction. -/
  | move (e : UnknownMove)
  /-- A batch size is zero. -/
  | batch (e : Suite.EmptyBatch)
  /-- A question was asked, and there is no answer left. -/
  | noAnswer (question : Question)
  /-- An input was asked for, and the answer has no symbols. -/
  | noSymbols (answer : Json)
  /-- An input was given that has symbols, but is no text that could be shown. -/
  | noMarkup (input : Json)
  /-- A line was asked for, and the answer is no text. -/
  | noLine (answer : Json)
  /-- An integer was asked for, and the answer cannot be compared with one. -/
  | noInteger (answer : Json)
  /-- An integer was asked for, and the answer is another number. -/
  | noWholeNumber (answer : Json)
  /-- A file was to be opened, and a path was not given. -/
  | noPath (value : Json)
  /-- A file was to be looked for, and a path was not given. -/
  | noPathToLookFor (value : Json)
  /-- A message, a table or a file would hold an integer with too many digits. -/
  | longInteger (e : Text.Integer.TooLong)
  /-- A machine was played for longer than anyone would wait. -/
  | unfinished

namespace Fault

/-- A text file that cannot be read. -/
def ofText : Files.TextError → Fault
  | .file e => .file e
  | .encoding e => .encoding e

/-- A text that cannot be written to its end. -/
def ofWriteError : Json.WriteError → Fault
  | .longInteger e => .longInteger e
  | .tooDeep => .file .tooDeep

/-- A program text that is refused, if the message can be written. -/
def ofCompile (e : CompileError) : Fault :=
  if e.lines.all Text.Integer.isWritable then .compile e else .longInteger ⟨⟩

theorem ofCompile_malformed (text : String) (line : Int) :
    ofCompile (.malformed text line) =
      if Text.Integer.isWritable line then .compile (.malformed text line)
      else .longInteger ⟨⟩ := by
  simp [ofCompile, CompileError.lines]

/-- The fault in words. -/
def message : Fault → String
  | .file e => e.message
  | .encoding e => e.message
  | .json e => e.message
  | .unmergeable e => e.message
  | .config e => e.message
  | .noSetting key => key.name
  | .noConfigFile path => "Configuration file not found at: " ++ path
  | .noProgramFile path => "Machine file " ++ path ++ " not found."
  | .compile e => e.message
  | .machine e => e.message
  | .beat e => e.message
  | .move e => e.move
  | .batch e => e.message
  | .noAnswer _ => "no more answers"
  | .noSymbols answer => "'" ++ answer.kindName ++ "' object is not iterable"
  | .noMarkup input => "expected string or bytes-like object, got '" ++ input.kindName ++ "'"
  | .noLine answer => "'" ++ answer.kindName ++ "' object has no attribute 'split'"
  | .noInteger answer =>
    "'<' not supported between instances of '" ++ answer.kindName ++ "' and 'int'"
  | .noWholeNumber answer =>
    "'" ++ answer.kindName ++ "' object cannot be interpreted as an integer"
  | .noPath value => "expected str, bytes or os.PathLike object, not " ++ value.kindName
  | .noPathToLookFor value =>
    "stat: path should be string, bytes, os.PathLike or integer, not " ++ value.kindName
  | .longInteger e => e.message
  | .unfinished => "the machine did not halt"

/-- Is a program text refused? -/
def isCompile : Fault → Bool
  | .compile _ => true
  | _ => false

/-- Does something not exist that was to be opened? -/
def isMissing : Fault → Bool
  | .file (.refused .notFound _) | .noConfigFile _ | .noProgramFile _ => true
  | _ => false

/-- Did the system refuse an operation on a file? -/
def isRefusal : Fault → Bool
  | .file (.refused _ _) | .file .noHandle => true
  | _ => false

/-- Is a text nested too deep to be read? -/
def isTooDeep : Fault → Bool
  | .json e => e.isTooDeep
  | _ => false

end Fault

end TapeMachine
