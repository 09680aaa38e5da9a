import TapeMachine.Status

/-!
# Colours of diagrams
-/

namespace TapeMachine.Theme

/-- The colour of what is going on. -/
def primary : String := "#ea580c"

/-- The colour of acceptance. -/
def success : String := "#10b981"

/-- The colour of rejection. -/
def error : String := "#ef4444"

/-- The colour of lines. -/
def stroke : String := "#94a3b8"

/-- The colour of writing. -/
def text : String := "#312e81"

/-- The colours by name. -/
def colours : List (String × String) :=
  [("primary", primary), ("success", success), ("error", error), ("stroke", stroke), ("text", text)]

/-- The colour of the current state under a status. -/
def ofStatus : Status → String
  | .accepted => success
  | .rejected => error
  | _ => primary

end TapeMachine.Theme
