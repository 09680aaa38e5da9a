import TapeMachine.Text.Hex
import TapeMachine.Text.Loose
import TapeMachine.Text.Printable

/-!
# Texts quoted in messages

A text is shown between apostrophes, or between double quotes if it holds an apostrophe and no
double quote. Backslash and the enclosing quote take a backslash in front; line feed, carriage
return and tab have letters; other characters that are not printable, and halves, are shown by their
number in two, four or eight hexadecimal digits.
-/

namespace TapeMachine.Text.Quoted

/-- The apostrophe. -/
def apostrophe : Char := Char.ofNat 39

/-- The mark that encloses a text. -/
def mark (ps : List CodePoint) : Char :=
  if ps.contains (.char apostrophe) && !ps.contains (.char '"') then '"' else apostrophe

/-- One character as it stands between the marks. -/
def encodeChar (enclosing c : Char) : List Char :=
  if c = enclosing ∨ c = '\\' then ['\\', c]
  else if c = '\n' then ['\\', 'n']
  else if c = '\r' then ['\\', 'r']
  else if c = '\t' then ['\\', 't']
  else if isPrintable c then [c]
  else if c.toNat < 0x100 then '\\' :: 'x' :: Hex.digits 2 c.toNat
  else if c.toNat < 0x10000 then '\\' :: 'u' :: Hex.digits 4 c.toNat
  else '\\' :: 'U' :: Hex.digits 8 c.toNat

/-- A character or a half as it stands between the marks. -/
def encodePoint (enclosing : Char) : CodePoint → List Char
  | .char c => encodeChar enclosing c
  | .half h => '\\' :: 'u' :: Hex.digits 4 h.code

/-- The characters of a text between its marks. -/
def encode (ps : List CodePoint) : List Char :=
  let m := mark ps
  m :: ps.flatMap (encodePoint m) ++ [m]

end Quoted

/-- A text as messages show it. -/
def quoted (t : Loose) : String := String.ofList (Quoted.encode t.points)

end TapeMachine.Text
