import TapeMachine.Text.Loose

/-!
# Tables for the console

What is handed to the console to be drawn as a table: perhaps a title, a header for each column,
and rows of cells. All columns are centred.
-/

namespace TapeMachine

/-- A cell of a drawn table. -/
inductive Cell where
  /-- A text with markup in it. -/
  | markup (text : Text.Loose)
  /-- A plain text with a style; the empty style is none. -/
  | styled (text : Text.Loose) (style : String)
  deriving DecidableEq, Repr

/-- Is the character one that the console would act on, and not show? These are the bell, the
backspace, the vertical tab, the form feed and the carriage return. -/
def isConsoleControl : Text.CodePoint → Bool
  | .char c => [7, 8, 11, 12, 13].contains c.toNat
  | .half _ => false

/-- A cell with a plain text, without the characters that the console would act on. -/
def Cell.plain (text : Text.Loose) (style : String) : Cell :=
  .styled (.ofPoints (text.points.filter fun p => !isConsoleControl p)) style

/-- A table to be drawn. -/
structure Drawing where
  title : Option String
  headers : List Text.Loose
  rows : List (List Cell)
  deriving DecidableEq, Repr

/-- The alignment of each column. -/
def Drawing.alignments (d : Drawing) : List String := d.headers.map fun _ => "center"

end TapeMachine
