import TapeMachine.Display.Drawing
import TapeMachine.Display.Markup
import TapeMachine.Machine.Basic
import TapeMachine.Text.Integer

/-!
# The view of a machine

A machine is shown as a strip of tape cells around the head and a line that tells its status.
Texts of the user stand in the line escaped. A machine that would be shown with an integer too long
to be written cannot be shown.
-/

namespace TapeMachine

/-- The colour in which a status is written. -/
def Status.colour : Status → String
  | .idle => "white"
  | .running => "cyan"
  | .paused => "yellow"
  | .accepted => "green"
  | .rejected => "red"

namespace Machine

/-- The cell of a tape position; the one under the head is highlighted. -/
def tapeCell (m : Machine) (position : Nat) (mark : Mark) : Cell :=
  if position = m.head then .plain ("[" ++ mark ++ "]") ("bold " ++ m.status.colour)
  else .plain (" " ++ mark ++ " ") ""

/-- The row of the cells around the head. If no cell is shown there is no row either. -/
def tapeRows (m : Machine) (window : List (Nat × Mark)) : List (List Cell) :=
  if window.isEmpty then []
  else [window.map fun (position, mark) => m.tapeCell position mark]

/-- The headers of a drawn tape: the positions of its cells. -/
def tapeHeaders (window : List (Nat × Mark)) : Except Text.Integer.TooLong (List String) :=
  window.mapM fun (position, _) => Text.Integer.written position

/-- The tape around the head, with the positions as headers. -/
def drawTape (m : Machine) (radius : Int) : Except Text.Integer.TooLong Drawing := do
  let headers ← tapeHeaders (m.window radius)
  pure ⟨none, headers.map .whole, m.tapeRows (m.window radius)⟩

/-- The position of the head. -/
def headText (m : Machine) : Except Text.Integer.TooLong String :=
  if m.headAsTruth then .ok (if m.head = 0 then "False" else "True")
  else Text.Integer.written m.head

/-- The part of the status line that names the next transition. -/
def nextText (m : Machine) : Except Text.Integer.TooLong Text.Loose :=
  match m.activeTransition? with
  | some t => do
    let index ← Text.Integer.written t.index
    pure ("  next=#" ++ index ++ " " ++ Markup.escape t.label ++ " -> " ++ t.target)
  | none => .ok ""

/-- The part of the status line that tells why the machine rejected. -/
def errorText (m : Machine) : Text.Loose :=
  match m.lastError with
  | some why => "\n" ++ Markup.tagged "red" (Markup.escape why.message)
  | none => ""

/-- The status line. -/
def statusLine (m : Machine) : Except Text.Integer.TooLong Text.Loose := do
  let head ← m.headText
  let steps ← Text.Integer.written m.stepCount
  let next ← m.nextText
  pure (Markup.tagged ("bold " ++ m.status.colour) m.status.name
    ++ "  state=" ++ Markup.tagged "bold" m.state
    ++ "  head=" ++ head
    ++ "  steps=" ++ steps
    ++ "  input='" ++ Markup.escape m.input ++ "'"
    ++ next ++ m.errorText)

end Machine

end TapeMachine
