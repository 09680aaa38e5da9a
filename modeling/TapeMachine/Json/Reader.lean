import TapeMachine.Json.Basic
import TapeMachine.Text.Hex
import TapeMachine.Text.Integer

/-!
# Reading JSON

`Json.read` reads a whole text as one value. Besides the values of the standard it takes `NaN`,
`Infinity` and `-Infinity`. A text that is refused is refused with a cause and the place of it.

The reader works on the characters that are left; a place is told by how many were left there.
Integers may have `digitLimit` digits, and arrays and objects may be nested `depthLimit` deep;
`depth` is how much deeper the reader may go. How far it may still go is bounded by `fuel`; twice
the length of the text is always enough.
-/

namespace TapeMachine.Json

/-- Why a text is no JSON value. -/
inductive Cause where
  /-- No value starts here. -/
  | value
  /-- The name of a field should start here. -/
  | name
  /-- A colon should stand here. -/
  | colon
  /-- A comma should stand here. -/
  | comma
  /-- The value has ended, and the text goes on. -/
  | extra
  /-- The string that starts here does not end. -/
  | openString
  /-- A control character stands in a string. -/
  | control
  /-- No character has this escape. -/
  | escape
  /-- Four hexadecimal digits should follow. -/
  | unicode
  /-- A byte order mark stands in front. -/
  | byteOrderMark
  /-- An integer has too many digits. -/
  | longInteger (digits : Nat)
  /-- An array starts here, too deep inside others. -/
  | deepArray
  /-- An object starts here, too deep inside others. -/
  | deepObject
  deriving DecidableEq, Repr

/-- Where and why reading stopped. -/
structure Stop where
  cause : Cause
  left : Nat
  deriving DecidableEq, Repr

/-- What a part of the reader returns: what it read and the characters behind it. -/
abbrev Result (α : Type) := Except Stop (α × List Char)

/-- Reading stops in front of these characters. -/
def stop {α : Type} (cause : Cause) (rest : List Char) : Result α := .error ⟨cause, rest.length⟩

/-- The white space between the parts of a value. -/
def isSpace (c : Char) : Bool := c == ' ' || c == '\t' || c == '\n' || c == '\r'

/-- Drops the white space in front. -/
def skip (cs : List Char) : List Char := cs.dropWhile isSpace

/-! ## Strings -/

/-- The character that a letter behind a backslash stands for. -/
def unescape? : Char → Option Char
  | '"' => some '"'
  | '\\' => some '\\'
  | '/' => some '/'
  | 'b' => some (Char.ofNat 8)
  | 'f' => some (Char.ofNat 12)
  | 'n' => some '\n'
  | 'r' => some '\r'
  | 't' => some '\t'
  | _ => none

/-- The value of four hexadecimal digits. -/
def unit? (a b c d : Char) : Option Nat := do
  let a ← Text.Hex.value? a
  let b ← Text.Hex.value? b
  let c ← Text.Hex.value? c
  let d ← Text.Hex.value? d
  pure (((a * 16 + b) * 16 + c) * 16 + d)

/-- Is the unit the first half of a pair? -/
def isHighHalf (n : Nat) : Bool := 0xD800 ≤ n && n ≤ 0xDBFF

/-- Is the unit the second half of a pair? -/
def isLowHalf (n : Nat) : Bool := 0xDC00 ≤ n && n ≤ 0xDFFF

/-- The character that a pair of halves stands for. -/
def joinHalves (high low : Nat) : Char :=
  Char.ofNat (0x10000 + (high - 0xD800) * 0x400 + (low - 0xDC00))

/-- A part of a string: a character, or a unit given by its four digits. -/
inductive Piece where
  | char (c : Char)
  | unit (n : Nat)
  deriving DecidableEq, Repr

/-- Puts a part in front of what was read. -/
def prepend (p : Piece) : Result (List Piece) → Result (List Piece)
  | .ok (ps, rest) => .ok (p :: ps, rest)
  | .error e => .error e

/-- Reads the parts of a string up to its closing quote. A string without one is refused at `start`,
its opening quote. An escape of four digits must have a character behind it. -/
def readPieces (start : List Char) : List Char → Result (List Piece)
  | [] => stop .openString start
  | '"' :: rest => .ok ([], rest)
  | ['\\'] => stop .openString start
  | '\\' :: 'u' :: a :: b :: c :: d :: rest =>
    if rest.isEmpty then stop .unicode ['u', a, b, c, d]
    else match unit? a b c d with
      | some n => prepend (.unit n) (readPieces start rest)
      | none => stop .unicode ('u' :: a :: b :: c :: d :: rest)
  | '\\' :: 'u' :: rest => stop .unicode ('u' :: rest)
  | '\\' :: c :: rest =>
    match unescape? c with
    | some d => prepend (.char d) (readPieces start rest)
    | none => stop .escape ('\\' :: c :: rest)
  | c :: rest =>
    if c.toNat < 0x20 then stop .control (c :: rest)
    else prepend (.char c) (readPieces start rest)

/-- What the string is made of. A first half waits for its partner in `waiting`, and stands alone if
none follows. -/
def joinPieces (waiting : Option Nat) : List Piece → List Text.CodePoint
  | [] => (waiting.map Text.CodePoint.ofCode).toList
  | .char c :: rest => (waiting.map Text.CodePoint.ofCode).toList ++ .char c :: joinPieces none rest
  | .unit n :: rest =>
    match waiting with
    | some high =>
      if isLowHalf n then .char (joinHalves high n) :: joinPieces none rest
      else if isHighHalf n then .ofCode high :: joinPieces (some n) rest
      else .ofCode high :: .ofCode n :: joinPieces none rest
    | none =>
      if isHighHalf n then joinPieces (some n) rest else .ofCode n :: joinPieces none rest

/-- Reads a string behind its opening quote. -/
def readString (rest : List Char) : Result Text.Loose :=
  match readPieces ('"' :: rest) rest with
  | .ok (ps, rest) => .ok (.ofPoints (joinPieces none ps), rest)
  | .error e => .error e

/-! ## Numbers -/

/-- Is the character a decimal digit? -/
def isDigit (c : Char) : Bool := 48 ≤ c.toNat && c.toNat ≤ 57

/-- The value of decimal digits. -/
def decimalValue (digits : List Char) : Nat :=
  digits.foldl (fun n c => 10 * n + (c.toNat - 48)) 0

/-- The digits in front of the point: a zero alone, or any that do not start with one. -/
def integerDigits : List Char → List Char
  | '0' :: _ => ['0']
  | cs => cs.takeWhile isDigit

/-- The digits behind the point, if a point and a digit follow, and what comes after. -/
def fraction : List Char → Option (List Char) × List Char
  | '.' :: c :: rest =>
    if isDigit c then (some (c :: rest.takeWhile isDigit), rest.dropWhile isDigit)
    else (none, '.' :: c :: rest)
  | cs => (none, cs)

/-- The exponent, if a mark, perhaps a sign, and a digit follow, and what comes after. -/
def exponent (cs : List Char) : Option Int × List Char :=
  match cs with
  | mark :: rest =>
    if mark = 'e' ∨ mark = 'E' then
      let (negative, digits) : Bool × List Char := match rest with
        | '-' :: digits => (true, digits)
        | '+' :: digits => (false, digits)
        | digits => (false, digits)
      match digits.takeWhile isDigit with
      | [] => (none, cs)
      | ds =>
        let n : Int := decimalValue ds
        (some (if negative then -n else n), digits.dropWhile isDigit)
    else (none, cs)
  | [] => (none, cs)

/-- Reads a number behind its sign; `whole` is the text from the sign on. -/
def readUnsigned (digitLimit : Nat) (whole : List Char) (negative : Bool) (cs : List Char) :
    Result Json :=
  let digits := integerDigits cs
  if digits.isEmpty then stop .value whole
  else
    let rest := cs.drop digits.length
    let (fractionDigits, rest) := fraction rest
    let (power, rest) := exponent rest
    match fractionDigits, power with
    | none, none =>
      if digitLimit < digits.length then .error ⟨.longInteger digits.length, 0⟩
      else
        let n : Int := decimalValue digits
        .ok (.int (if negative then -n else n), rest)
    | _, _ =>
      let behind := fractionDigits.getD []
      let x := Binary64.ofDecimal negative (decimalValue (digits ++ behind))
        (power.getD 0 - behind.length)
      .ok (.real x, rest)

/-- Reads a number. -/
def readNumber (digitLimit : Nat) : List Char → Result Json
  | '-' :: rest => readUnsigned digitLimit ('-' :: rest) true rest
  | cs => readUnsigned digitLimit cs false cs

/-! ## Values -/

mutual

/-- Reads a value. -/
def readValue (digitLimit : Nat) : (fuel : Nat) → (depth : Nat) → List Char → Result Json
  | 0, _, cs => stop .value cs
  | fuel + 1, depth, cs =>
    match cs with
    | '"' :: rest =>
      match readString rest with
      | .ok (s, rest) => .ok (.str s, rest)
      | .error e => .error e
    | '\x7b' :: rest =>
      if depth = 0 then stop .deepObject ('\x7b' :: rest)
      else match skip rest with
        | '\x7d' :: rest => .ok (.obj [], rest)
        | rest =>
          match readFields digitLimit fuel (depth - 1) rest with
          | .ok (fields, rest) => .ok (.obj (Fields.merge fields), rest)
          | .error e => .error e
    | '[' :: rest =>
      if depth = 0 then stop .deepArray ('[' :: rest)
      else match skip rest with
        | ']' :: rest => .ok (.arr [], rest)
        | rest =>
          match readItems digitLimit fuel (depth - 1) rest with
          | .ok (items, rest) => .ok (.arr items, rest)
          | .error e => .error e
    | 'n' :: 'u' :: 'l' :: 'l' :: rest => .ok (.null, rest)
    | 't' :: 'r' :: 'u' :: 'e' :: rest => .ok (.bool true, rest)
    | 'f' :: 'a' :: 'l' :: 's' :: 'e' :: rest => .ok (.bool false, rest)
    | 'N' :: 'a' :: 'N' :: rest => .ok (.real .nan, rest)
    | 'I' :: 'n' :: 'f' :: 'i' :: 'n' :: 'i' :: 't' :: 'y' :: rest =>
      .ok (.real (.infinite false), rest)
    | '-' :: 'I' :: 'n' :: 'f' :: 'i' :: 'n' :: 'i' :: 't' :: 'y' :: rest =>
      .ok (.real (.infinite true), rest)
    | cs => readNumber digitLimit cs

/-- Reads the items of an array, from the first to the closing bracket. -/
def readItems (digitLimit : Nat) : (fuel : Nat) → (depth : Nat) → List Char → Result (List Json)
  | 0, _, cs => stop .value cs
  | fuel + 1, depth, cs =>
    match readValue digitLimit fuel depth cs with
    | .error e => .error e
    | .ok (item, rest) =>
      match skip rest with
      | ']' :: rest => .ok ([item], rest)
      | ',' :: rest =>
        match readItems digitLimit fuel depth (skip rest) with
        | .ok (items, rest) => .ok (item :: items, rest)
        | .error e => .error e
      | rest => stop .comma rest

/-- Reads the fields of an object, from the first to the closing brace. -/
def readFields (digitLimit : Nat) : (fuel : Nat) → (depth : Nat) → List Char → Result Fields
  | 0, _, cs => stop .name cs
  | fuel + 1, depth, cs =>
    match cs with
    | '"' :: rest =>
      match readString rest with
      | .error e => .error e
      | .ok (name, rest) =>
        match skip rest with
        | ':' :: rest =>
          match readValue digitLimit fuel depth (skip rest) with
          | .error e => .error e
          | .ok (value, rest) =>
            match skip rest with
            | '\x7d' :: rest => .ok ([(name, value)], rest)
            | ',' :: rest =>
              match readFields digitLimit fuel depth (skip rest) with
              | .ok (fields, rest) => .ok ((name, value) :: fields, rest)
              | .error e => .error e
            | rest => stop .comma rest
        | rest => stop .colon rest
    | cs => stop .name cs

end

/-- How deep arrays and objects may be nested. -/
def depthLimit : Nat := 987

/-- Reads a value that takes up the whole text, with bounds on its integers and its depth. -/
def readWithin (digitLimit depth : Nat) (cs : List Char) : Except Stop Json :=
  if cs.head? = some (Char.ofNat 0xFEFF) then .error ⟨.byteOrderMark, cs.length⟩
  else
    match readValue digitLimit (2 * cs.length + 2) depth (skip cs) with
    | .error e => .error e
    | .ok (value, rest) =>
      match skip rest with
      | [] => .ok value
      | rest => .error ⟨.extra, rest.length⟩

/-- Reads a value that takes up the whole text. -/
def readWhole (cs : List Char) : Except Stop Json :=
  readWithin Text.Integer.digitLimit depthLimit cs

/-! ## Places and messages -/

/-- Why a text is no JSON value, and where: the place is counted from zero, lines and columns from
one. -/
structure ReadError where
  cause : Cause
  place : Nat
  line : Nat
  column : Nat
  deriving DecidableEq, Repr

/-- The error of a text in which reading stopped. -/
def Stop.locate (s : Stop) (cs : List Char) : ReadError :=
  let before := cs.take (cs.length - s.left)
  { cause := s.cause
    place := before.length
    line := before.count '\n' + 1
    column := (before.reverse.takeWhile (· != '\n')).length + 1 }

/-- Reads a text as one value. -/
def read (text : String) : Except ReadError Json :=
  match readWhole text.toList with
  | .ok value => .ok value
  | .error s => .error (s.locate text.toList)

/-- The cause in words. -/
def Cause.message : Cause → String
  | .value => "Expecting value"
  | .name => "Expecting property name enclosed in double quotes"
  | .colon => "Expecting ':' delimiter"
  | .comma => "Expecting ',' delimiter"
  | .extra => "Extra data"
  | .openString => "Unterminated string starting at"
  | .control => "Invalid control character at"
  | .escape => "Invalid \\escape"
  | .unicode => "Invalid \\uXXXX escape"
  | .byteOrderMark => "Unexpected UTF-8 BOM (decode using utf-8-sig)"
  | .longInteger digits =>
    "Exceeds the limit (" ++ toString Text.Integer.digitLimit
      ++ " digits) for integer string conversion: value has " ++ toString digits
      ++ " digits; use sys.set_int_max_str_digits() to increase the limit"
  | .deepArray =>
    "maximum recursion depth exceeded while decoding a JSON array from a unicode string"
  | .deepObject =>
    "maximum recursion depth exceeded while decoding a JSON object from a unicode string"

/-- Does the text go deeper than it may? -/
def ReadError.isTooDeep (e : ReadError) : Bool :=
  match e.cause with
  | .deepArray | .deepObject => true
  | _ => false

/-- Is the text well-formed up to a number that is too long to be read? -/
def ReadError.isLimit (e : ReadError) : Bool :=
  match e.cause with
  | .longInteger _ => true
  | _ => false

/-- The cause and its place; where a limit was reached is not told. -/
def ReadError.message (e : ReadError) : String :=
  if e.isLimit || e.isTooDeep then e.cause.message
  else e.cause.message ++ ": line " ++ toString e.line ++ " column " ++ toString e.column
    ++ " (char " ++ toString e.place ++ ")"

end TapeMachine.Json
