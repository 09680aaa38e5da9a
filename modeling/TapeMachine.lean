import TapeMachine.Alphabet
import TapeMachine.Binary64.Basic
import TapeMachine.Binary64.Shortest
import TapeMachine.Binary64.Text
import TapeMachine.Command.Basic
import TapeMachine.Command.EditConfig
import TapeMachine.Command.Inspect
import TapeMachine.Command.Interactive
import TapeMachine.Command.Options
import TapeMachine.Command.Simulate
import TapeMachine.Command.Suite
import TapeMachine.Command.Usage
import TapeMachine.CompileError
import TapeMachine.Config.Basic
import TapeMachine.Config.Merge
import TapeMachine.Config.Store
import TapeMachine.Console.Event
import TapeMachine.Console.Session
import TapeMachine.Console.World
import TapeMachine.Display.Drawing
import TapeMachine.Display.Grid
import TapeMachine.Display.MachineView
import TapeMachine.Display.Markup
import TapeMachine.Display.Results
import TapeMachine.Fault
import TapeMachine.Files.Change
import TapeMachine.Files.Encoding
import TapeMachine.Files.Path
import TapeMachine.Files.Text
import TapeMachine.Files.Tree
import TapeMachine.Graph.Basic
import TapeMachine.Graph.Dot
import TapeMachine.Graph.Mermaid
import TapeMachine.Graph.Theme
import TapeMachine.Journal.Basic
import TapeMachine.Journal.Entry
import TapeMachine.Json.Basic
import TapeMachine.Json.Chunks
import TapeMachine.Json.Message
import TapeMachine.Json.Printer
import TapeMachine.Json.Reader
import TapeMachine.Machine.Basic
import TapeMachine.Machine.History
import TapeMachine.Machine.Operation
import TapeMachine.Machine.Playback
import TapeMachine.Main
import TapeMachine.Program
import TapeMachine.Proofs.Atomicity
import TapeMachine.Proofs.CleanTape
import TapeMachine.Proofs.CompileOutcome
import TapeMachine.Proofs.CompiledTable
import TapeMachine.Proofs.ConfigChecks
import TapeMachine.Proofs.Configuration
import TapeMachine.Proofs.FileNames
import TapeMachine.Proofs.FileTree
import TapeMachine.Proofs.HistoryBound
import TapeMachine.Proofs.HistoryChain
import TapeMachine.Proofs.InteractiveSession
import TapeMachine.Proofs.JournalChannels
import TapeMachine.Proofs.JournalSessions
import TapeMachine.Proofs.JsonChunks
import TapeMachine.Proofs.JsonRoundTrip
import TapeMachine.Proofs.JsonStrings
import TapeMachine.Proofs.OctetLines
import TapeMachine.Proofs.PalindromeDecision
import TapeMachine.Proofs.PalindromeProgram
import TapeMachine.Proofs.Preservation
import TapeMachine.Proofs.ProgramFaults
import TapeMachine.Proofs.ProgramFiles
import TapeMachine.Proofs.ProgramOrigins
import TapeMachine.Proofs.ReachableState
import TapeMachine.Proofs.Reaches
import TapeMachine.Proofs.RecordSources
import TapeMachine.Proofs.RuleGrammar
import TapeMachine.Proofs.RunRecords
import TapeMachine.Proofs.SessionFrames
import TapeMachine.Proofs.SessionQuestions
import TapeMachine.Proofs.SessionRuns
import TapeMachine.Proofs.SingleRun
import TapeMachine.Proofs.Standing
import TapeMachine.Proofs.SuiteBatches
import TapeMachine.Proofs.SuiteCommand
import TapeMachine.Proofs.Switches
import TapeMachine.Proofs.Textbook
import TapeMachine.Proofs.TextbookRefinement
import TapeMachine.Proofs.Turns
import TapeMachine.Proofs.Undo
import TapeMachine.Proofs.VerdictAgreement
import TapeMachine.Proofs.Walks
import TapeMachine.Rule.Basic
import TapeMachine.Rule.Grammar
import TapeMachine.Rule.Reader
import TapeMachine.Rule.Source
import TapeMachine.Sample
import TapeMachine.Status
import TapeMachine.Suite
import TapeMachine.Suite.Inputs
import TapeMachine.Table.Basic
import TapeMachine.Tape
import TapeMachine.Text.Blank
import TapeMachine.Text.DecimalDigit
import TapeMachine.Text.Hex
import TapeMachine.Text.Integer
import TapeMachine.Text.Line
import TapeMachine.Text.Loose
import TapeMachine.Text.Printable
import TapeMachine.Text.Quoted
import TapeMachine.Text.Ranges
import TapeMachine.Text.Split
import TapeMachine.Text.Utf8
import TapeMachine.Text.Word
import TapeMachine.Verdict
import TapeMachine.Proofs.Redo
import TapeMachine.Proofs.AcceptanceThreshold
import TapeMachine.Proofs.Dictionary
import TapeMachine.Proofs.RuleOrder
import TapeMachine.Proofs.LetteredTape
import TapeMachine.Proofs.Simulation
import TapeMachine.Proofs.InputPrefix
import TapeMachine.Proofs.LiveStates
import TapeMachine.Proofs.Renaming
import TapeMachine.Proofs.ShiftedRuns
import TapeMachine.Proofs.PlayAndPause
import TapeMachine.Proofs.RepeatedSteps
import TapeMachine.Proofs.PlayedRuns
import TapeMachine.Proofs.SkippedLines
import TapeMachine.Proofs.CompiledGraph
import TapeMachine.Proofs.DiagramLines
import TapeMachine.Proofs.DigraphReading
import TapeMachine.Proofs.FlowchartReading
import TapeMachine.Proofs.ReachableTape
import TapeMachine.Proofs.TapeText
import TapeMachine.Proofs.DiagramAgreement
import TapeMachine.Proofs.BatchedSuite
import TapeMachine.Proofs.LiveMarkup
import TapeMachine.Proofs.StatusMarkup
import TapeMachine.Proofs.NumberRounding
import TapeMachine.Proofs.ShortestDecimal
import TapeMachine.Proofs.SavedSettings
import TapeMachine.Proofs.SavingLimits
import TapeMachine.Proofs.EditedSettings
import TapeMachine.Proofs.TransitionGrid
import TapeMachine.Proofs.TapeWindow
import TapeMachine.Proofs.TypedInputs
import TapeMachine.Proofs.StepBounds
