import TapeMachine.Journal.Basic
import TapeMachine.Machine.Basic
import TapeMachine.Suite

/-!
# Journal entries
-/

namespace TapeMachine.Journal

/-- An optional text as a value. -/
def optionalText : Option Text.Loose → Json
  | some s => .str s
  | none => .null

/-- A position of the head as a value. -/
def positionValue (head : Nat) (asTruth : Bool) : Json :=
  if asTruth then .bool (head != 0) else .int head

/-- The position of the head of a machine as a value. -/
def headValue (m : Machine) : Json := positionValue m.head m.headAsTruth

/-- How a run ended. The source names the program; that is a text, unless nobody knows it. -/
def runEntry (m : Machine) (source : Json) (stamp : String) : Json :=
  .obj [("timestamp", .str stamp), ("source", source), ("input", .str m.input),
    ("status", .str m.status.name), ("state", .str m.state), ("head", headValue m),
    ("steps", .int m.stepCount), ("error", optionalText (m.lastError.map (·.message))),
    ("tape", .str m.tape.contents)]

/-- The verdict on a case. -/
def caseEntry (program stamp : String) (c : Case) : Json :=
  .obj [("machine", .str program), ("id", .int c.id), ("input", .str c.input),
    ("status", .str c.status.name), ("timestamp", .str stamp)]

/-- The counts of a summary. Those of a status that cases do not have when a suite has been run are
left out if they are zero. -/
def summaryFields (s : Suite.Summary) : Json.Fields :=
  let always : Json.Fields :=
    [("total", .int s.total), ("accepted", .int s.accepted), ("rejected", .int s.rejected),
      ("idle", .int s.idle)]
  let running : Json.Fields := if s.running = 0 then [] else [("running", .int s.running)]
  let paused : Json.Fields := if s.paused = 0 then [] else [("paused", .int s.paused)]
  always ++ running ++ paused

end TapeMachine.Journal
