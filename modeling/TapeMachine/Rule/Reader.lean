import TapeMachine.CompileError
import TapeMachine.Rule.Basic
import TapeMachine.Text.Blank
import TapeMachine.Text.Word

/-!
# Reading a rule

A rule is a line such as `q0 a/b,R q1 // comment`: a state, white space, the symbol read, a slash,
the symbol written, a comma, a direction, white space, the next state, and perhaps a comment. White
space may stand around the slash and the comma. The scanner takes one part after the other from
the front; each part ends where its class of characters ends, so there is never a choice to undo.
-/

namespace TapeMachine.Rule

open TapeMachine.Text (isBlank isWord)

/-- Drops the white space in front. -/
def skipBlank (cs : List Char) : List Char := cs.dropWhile isBlank

/-- Takes a word: as many word characters as there are, at least one. -/
def word? (cs : List Char) : Option (List Char × List Char) :=
  if (cs.takeWhile isWord).isEmpty then none else some (cs.takeWhile isWord, cs.dropWhile isWord)

/-- Takes white space: all there is, at least one character. -/
def gap? : List Char → Option (List Char)
  | [] => none
  | c :: rest => if isBlank c then some (skipBlank rest) else none

/-- May the character be a tape symbol of a program? -/
def isSymbol (c : Char) : Bool := !isBlank c && c != '/'

/-- Takes a tape symbol. -/
def symbol? : List Char → Option (Char × List Char)
  | [] => none
  | c :: rest => if isSymbol c then some (c, rest) else none

/-- Takes one given character, after white space if there is any. -/
def mark? (mark : Char) (cs : List Char) : Option (List Char) :=
  match skipBlank cs with
  | [] => none
  | c :: rest => if c = mark then some rest else none

/-- Takes the letter of a direction. -/
def direction? : List Char → Option (Direction × List Char)
  | 'L' :: rest => some (.left, rest)
  | 'R' :: rest => some (.right, rest)
  | 'S' :: rest => some (.stay, rest)
  | _ => none

/-- What stands behind the sign that opens a comment, if the text starts with one. -/
def comment? : List Char → Option (List Char)
  | '/' :: '/' :: rest => some rest
  | '#' :: rest => some rest
  | ';' :: rest => some rest
  | _ => none

/-- What may follow the next state: nothing, or a comment on the same line. -/
def isTail (cs : List Char) : Bool :=
  cs.isEmpty || match comment? (skipBlank cs) with
    | some text => !text.contains '\n'
    | none => false

/-- Reads a rule from characters without white space at either end. -/
def scan? (line : Int) (cs : List Char) : Option Rule := do
  let (source, cs) ← word? cs
  let cs ← gap? cs
  let (read, cs) ← symbol? cs
  let cs ← mark? '/' cs
  let (write, cs) ← symbol? (skipBlank cs)
  let cs ← mark? ',' cs
  let (direction, cs) ← direction? (skipBlank cs)
  let cs ← gap? cs
  let (target, cs) ← word? cs
  if isTail cs then
    some ⟨String.ofList source, String.singleton read, String.singleton write, direction.letter,
      String.ofList target, line⟩
  else none

/-- Reads a rule from a line; `line` is counted from zero. -/
def ofLine (text : String) (line : Int) : Except CompileError Rule :=
  match scan? line (Text.stripChars text.toList) with
  | some rule => .ok rule
  | none => .error (.malformed (Text.strip text) (line + 1))

end TapeMachine.Rule
