import TapeMachine.Command.Options
import TapeMachine.Text.Split

/-!
# How a command is used

What a command answers when it is asked how it is used: the forms of its switches, what it does, and
what each switch is for, next to each other in two columns. Lines are broken at spaces so that they
fit the width of a terminal.
-/

namespace TapeMachine.Command

/-- A command, as it is used: what it does, and its own switches. -/
structure Manual where
  purpose : String
  switches : List Switch
  deriving DecidableEq, Repr

namespace Manual

/-- The name under which the commands are started. -/
def programName : String := "app.py"

/-- The longest line. -/
def width : Nat := 78

/-- The furthest column in which it can start what a switch is for. -/
def furthestColumn : Nat := 24

/-- So many spaces. -/
def spaces (n : Nat) : String := String.ofList (List.replicate n ' ')

/-- The lines of words behind the words of a line. -/
def fillFrom (width : Nat) (line : String) : List String → List String
  | [] => [line]
  | word :: rest =>
    if line.length + 1 + word.length ≤ width then fillFrom width (line ++ " " ++ word) rest
    else line :: fillFrom width word rest

/-- Words in lines, as many in each as there is room for. -/
def fill (width : Nat) : List String → List String
  | [] => []
  | word :: rest => fillFrom width word rest

/-- The words of a text. -/
def words (text : String) : List String := (Text.splitAt ' ' text.toList).map String.ofList

/-- What stands for the value of a switch: its choices, or its name in capitals. -/
def placeholder (s : Switch) : String :=
  match s.takes with
  | .oneOf choices => "\x7b" ++ ",".intercalate choices ++ "\x7d"
  | _ => String.ofList ((s.name.toList.dropWhile (· == '-')).map Char.toUpper)

/-- How a switch is given. -/
def form (s : Switch) : String :=
  if s.takes.value then s.name ++ " " ++ placeholder s else s.name

/-- How a switch is given, in brackets if it need not be. -/
def usageForm (s : Switch) : String := if s.required then form s else "[" ++ form s ++ "]"

/-- The lines that tell how the command is started. -/
def usageLines (m : Manual) : List String :=
  let lead := "usage: " ++ programName ++ " "
  match fill (width - lead.length) ("[-h]" :: m.switches.map usageForm) with
  | [] => [lead]
  | line :: rest => (lead ++ line) :: rest.map (spaces lead.length ++ ·)

/-- The forms of all switches, with what they are for. -/
def entries (m : Manual) : List (String × String) :=
  (", ".intercalate (helpSwitches.map (·.name)), helpPurpose)
    :: m.switches.map fun s => (form s, s.purpose)

/-- The column in which it starts what a switch is for. -/
def column (entries : List (String × String)) : Nat :=
  min furthestColumn ((entries.map fun (form, _) => form.length + 4).foldl max 0)

/-- The lines of a switch. If there is no room in front of the column for its form, that has a line
of its own. -/
def entryLines (column : Nat) (form purpose : String) : List String :=
  let lines := fill (width - column) (words purpose)
  let lead := "  " ++ form
  match lines with
  | [] => [lead]
  | line :: rest =>
    let others := rest.map (spaces column ++ ·)
    if lead.length + 2 ≤ column then (lead ++ spaces (column - lead.length) ++ line) :: others
    else lead :: (spaces column ++ line) :: others

/-- The lines that tell how the command is used. -/
def lines (m : Manual) : List String :=
  m.usageLines ++ [""] ++ fill width (words m.purpose) ++ ["", "options:"]
    ++ m.entries.flatMap fun (form, purpose) => entryLines (column m.entries) form purpose

end Manual

end TapeMachine.Command
