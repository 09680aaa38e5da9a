import TapeMachine.Binary64.Shortest

/-!
# Numbers as text

Numbers are written with their shortest decimal: positionally if the leading digit stands at a
power of ten from -4 to 15, otherwise with an exponent that has a sign and at least two digits. A
number without a fraction keeps `.0` in positional form.
-/

namespace TapeMachine.Binary64

/-- The least and the greatest power of ten of a leading digit that is written positionally. -/
def positional (power : Int) : Bool := -4 ≤ power && power ≤ 15

/-- An exponent with its sign and at least two digits. -/
def exponentText (power : Int) : List Char :=
  let digits := Nat.toDigits 10 power.natAbs
  (if power < 0 then '-' else '+') :: (if digits.length < 2 then '0' :: digits else digits)

/-- The digits with the point behind the first `point` of them, and zeros where digits lack. -/
def pointed (digits : List Char) (point : Int) : List Char :=
  if point ≤ 0 then '0' :: '.' :: (List.replicate (-point).toNat '0' ++ digits)
  else if digits.length ≤ point.toNat then
    digits ++ List.replicate (point.toNat - digits.length) '0' ++ ['.', '0']
  else digits.take point.toNat ++ '.' :: digits.drop point.toNat

/-- The text of a positive decimal. -/
def decimalText (d : Decimal) : List Char :=
  let digits := Nat.toDigits 10 d.digits
  let power := d.exponent + digits.length - 1
  if positional power then pointed digits (power + 1)
  else match digits with
    | [] => []
    | [digit] => digit :: 'e' :: exponentText power
    | first :: rest => first :: '.' :: rest ++ 'e' :: exponentText power

/-- The sign of a number in front of its text. -/
def signed (negative : Bool) (text : List Char) : List Char :=
  if negative then '-' :: text else text

/-- How the values that are no finite numbers are spelt. -/
structure Spelling where
  infinity : String
  nan : String

/-- The text of a number. -/
def chars (spelling : Spelling) : Binary64 → List Char
  | .nan => spelling.nan.toList
  | .infinite negative => signed negative spelling.infinity.toList
  | .finite negative m e =>
    signed negative (if m = 0 then "0.0".toList else decimalText (shortest m e))

/-- The text of a number in messages. -/
def text (x : Binary64) : String := String.ofList (x.chars ⟨"inf", "nan"⟩)

end TapeMachine.Binary64
