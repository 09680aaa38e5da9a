import TapeMachine.Text.Blank
import TapeMachine.Text.Split

/-!
# Inputs on one line

The inputs of a suite can be typed on one line, with commas between them. White space around an
input does not count, and a dash alone stands for the empty input.
-/

namespace TapeMachine.Suite

/-- The input that a piece of the line stands for. -/
def inputOf (piece : List Char) : String :=
  let text := String.ofList (Text.stripChars piece)
  if text = "-" then "" else text

/-- The inputs on a line; there is always at least one. -/
def readInputs (line : String) : List String := (Text.splitAt ',' line.toList).map inputOf

/-- The inputs as a line. -/
def writeInputs (inputs : List String) : String := ",".intercalate inputs

end TapeMachine.Suite
