/-!
# The status of a machine
-/

namespace TapeMachine

/-- What a machine is doing. The last two are final: no step is made from them. -/
inductive Status where
  | idle
  | running
  | paused
  | accepted
  | rejected
  deriving DecidableEq, Repr

namespace Status

/-- The name of a status. -/
def name : Status → String
  | .idle => "IDLE"
  | .running => "RUNNING"
  | .paused => "PAUSED"
  | .accepted => "ACCEPTED"
  | .rejected => "REJECTED"

/-- Every status, in order. -/
def all : List Status := [.idle, .running, .paused, .accepted, .rejected]

/-- The status of a name. -/
def ofName? (name : String) : Option Status := all.find? (·.name == name)

/-- Has the machine halted? -/
def isTerminal : Status → Bool
  | .accepted | .rejected => true
  | _ => false

/-- The verdict on an input, as a status. -/
def ofVerdict (accepts : Bool) : Status := if accepts then .accepted else .rejected

@[simp] theorem ofName?_name (s : Status) : ofName? s.name = some s := by
  cases s <;> rfl

theorem isTerminal_iff (s : Status) : s.isTerminal = true ↔ s = .accepted ∨ s = .rejected := by
  cases s <;> simp [isTerminal]

theorem ne_rejected_of_not_terminal {s : Status} (h : s.isTerminal = false) : s ≠ .rejected := by
  rintro rfl
  contradiction

end Status

end TapeMachine
