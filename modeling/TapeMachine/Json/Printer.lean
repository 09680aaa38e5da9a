import TapeMachine.Binary64.Text
import TapeMachine.Json.Basic
import TapeMachine.Text.Hex

/-!
# Writing JSON

Values are written in ASCII: other characters, control characters and halves are escaped by their
16-bit units. A value goes on one line, or on several with each level indented by four more spaces.
-/

namespace TapeMachine.Json

/-- The escape of a 16-bit unit. -/
def unitEscape (n : Nat) : List Char := '\\' :: 'u' :: Text.Hex.digits 4 n

/-- A character as it stands in a string. -/
def escapeChar (c : Char) : List Char :=
  let n := c.toNat
  if c = '"' ∨ c = '\\' then ['\\', c]
  else if c = '\n' then ['\\', 'n']
  else if c = '\r' then ['\\', 'r']
  else if c = '\t' then ['\\', 't']
  else if n = 8 then ['\\', 'b']
  else if n = 12 then ['\\', 'f']
  else if 0x20 ≤ n ∧ n ≤ 0x7E then [c]
  else if n < 0x10000 then unitEscape n
  else unitEscape (0xD800 + (n - 0x10000) / 0x400) ++ unitEscape (0xDC00 + (n - 0x10000) % 0x400)

/-- A character or a half as it stands in a string. -/
def escapePoint : Text.CodePoint → List Char
  | .char c => escapeChar c
  | .half h => unitEscape h.code

/-- A string between its quotes. -/
def stringChars (s : Text.Loose) : List Char := '"' :: s.points.flatMap escapePoint ++ ['"']

/-- The digits of an integer. -/
def intChars (n : Int) : List Char :=
  if n < 0 then '-' :: Nat.toDigits 10 n.natAbs else Nat.toDigits 10 n.natAbs

/-- How the values that are no finite numbers are spelt. -/
def realSpelling : Binary64.Spelling := ⟨"Infinity", "NaN"⟩

/-- Where items go: on one line, or each on a line of its own. -/
inductive Layout where
  | line
  | indented
  deriving DecidableEq, Repr

/-- What stands behind an opening and in front of a closing bracket at a depth. -/
def Layout.newline : Layout → Nat → List Char
  | .line, _ => []
  | .indented, depth => '\n' :: List.replicate (4 * depth) ' '

/-- What stands between two items at a depth. -/
def Layout.separator : Layout → Nat → List Char
  | .line, _ => [',', ' ']
  | .indented, depth => ',' :: '\n' :: List.replicate (4 * depth) ' '

mutual

/-- The characters of a value at a depth. -/
def chars (layout : Layout) (depth : Nat) : Json → List Char
  | .null => "null".toList
  | .bool true => "true".toList
  | .bool false => "false".toList
  | .int n => intChars n
  | .real x => x.chars realSpelling
  | .str s => stringChars s
  | .arr [] => ['[', ']']
  | .arr (item :: items) =>
    '[' :: layout.newline (depth + 1) ++ chars layout (depth + 1) item
      ++ itemChars layout (depth + 1) items ++ layout.newline depth ++ [']']
  | .obj [] => ['\x7b', '\x7d']
  | .obj ((name, value) :: fields) =>
    '\x7b' :: layout.newline (depth + 1) ++ stringChars name ++ [':', ' ']
      ++ chars layout (depth + 1) value
      ++ fieldChars layout (depth + 1) fields ++ layout.newline depth ++ ['\x7d']

/-- The characters of the items behind the first one. -/
def itemChars (layout : Layout) (depth : Nat) : List Json → List Char
  | [] => []
  | item :: items =>
    layout.separator depth ++ chars layout depth item ++ itemChars layout depth items

/-- The characters of the fields behind the first one. -/
def fieldChars (layout : Layout) (depth : Nat) : List (Text.Loose × Json) → List Char
  | [] => []
  | (name, value) :: fields =>
    layout.separator depth ++ stringChars name ++ [':', ' '] ++ chars layout depth value
      ++ fieldChars layout depth fields

end

/-- The text of a value on one line. -/
def compact (value : Json) : String := String.ofList (chars .line 0 value)

/-- The text of a value with each item on a line of its own. -/
def pretty (value : Json) : String := String.ofList (chars .indented 0 value)

end TapeMachine.Json
