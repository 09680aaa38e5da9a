import TapeMachine.Text.Loose

/-!
# Escaping console markup

The console reads a bracket group such as `[bold]` as a tag: an opening bracket, a letter from `a`
to `z` or one of `#`, `/` and `@`, and anything without an opening bracket up to the first closing
one. A backslash in front makes the group plain text, and a backslash there is itself escaped by
another. `escape` therefore doubles the backslashes in front of each group and adds one. A single
backslash at the end of a text is doubled, so that it cannot escape what is put behind it.
-/

namespace TapeMachine.Markup

open Text (CodePoint Loose)

/-- May the character follow the bracket that opens a tag? -/
def isTagStart : CodePoint → Bool
  | .char c => ('a' ≤ c && c ≤ 'z') || c == '#' || c == '/' || c == '@'
  | .half _ => false

/-- The bracket that opens a group. -/
def opening : CodePoint := .char '['

/-- The bracket that closes a group. -/
def closing : CodePoint := .char ']'

/-- The backslash. -/
def backslash : CodePoint := .char '\\'

/-- Does a closing bracket come before any opening one? -/
def closes : List CodePoint → Bool
  | [] => false
  | p :: rest => if p = closing then true else if p = opening then false else closes rest

/-- Does an opening bracket in front of this open a group? -/
def opensGroup : List CodePoint → Bool
  | [] => false
  | p :: rest => isTagStart p && closes rest

/-- Escapes the groups; `run` backslashes stand in front. -/
def escapeGroups (run : Nat) : List CodePoint → List CodePoint
  | [] => List.replicate run backslash
  | p :: rest =>
    if p = backslash then escapeGroups (run + 1) rest
    else if p = opening && opensGroup rest then
      List.replicate (2 * run + 1) backslash ++ p :: escapeGroups 0 rest
    else List.replicate run backslash ++ p :: escapeGroups 0 rest

/-- How many backslashes a text ends with. -/
def trailing (ps : List CodePoint) : Nat := (ps.reverse.takeWhile (· == backslash)).length

/-- Doubles a backslash that ends the text alone. -/
def closeEnd (ps : List CodePoint) : List CodePoint :=
  if trailing ps = 1 then ps ++ [backslash] else ps

/-- The text as markup that shows it. -/
def escape (t : Loose) : Loose := .ofPoints (closeEnd (escapeGroups 0 t.points))

/-- A text between an opening and a closing tag. -/
def tagged (style : String) (text : Loose) : Loose :=
  "[" ++ style ++ "]" ++ text ++ "[/" ++ style ++ "]"

end TapeMachine.Markup
