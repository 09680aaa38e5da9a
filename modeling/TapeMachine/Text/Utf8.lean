import TapeMachine.Text.Hex

/-!
# Reading UTF-8

`decode` reads bytes as text. Bytes that are no UTF-8 are refused with the place and the cause of
the first fault. `firstFault` finds it octet by octet: between characters it looks at a leading
octet, and inside a character it knows how many octets are still owed and which values the next one
may have.
-/

namespace TapeMachine.Text.Utf8

/-- Why a sequence of octets is no character. -/
inductive Cause where
  /-- No character starts with this octet. -/
  | start
  /-- An octet that cannot follow stands inside a character. -/
  | continuation
  /-- The text ends inside a character. -/
  | ending
  deriving DecidableEq, Repr

/-- The first fault: the octets from `first` up to, but not with, `last` and the value of the first
of them. -/
structure Malformed where
  first : Nat
  last : Nat
  octet : UInt8
  cause : Cause
  deriving DecidableEq, Repr

/-- A character that is not complete: where it starts, its first octet, how many octets are owed
and the bounds of the next one. -/
structure Pending where
  first : Nat
  octet : UInt8
  owed : Nat
  low : UInt8
  high : UInt8

/-- What a leading octet of a longer character asks for: the octets owed and the bounds of the
next one. The bounds keep out overlong forms, surrogates and values above U+10FFFF. -/
def lead? (b : UInt8) : Option (Nat × UInt8 × UInt8) :=
  if 0xC2 ≤ b ∧ b ≤ 0xDF then some (1, 0x80, 0xBF)
  else if b = 0xE0 then some (2, 0xA0, 0xBF)
  else if b = 0xED then some (2, 0x80, 0x9F)
  else if 0xE1 ≤ b ∧ b ≤ 0xEF then some (2, 0x80, 0xBF)
  else if b = 0xF0 then some (3, 0x90, 0xBF)
  else if 0xF1 ≤ b ∧ b ≤ 0xF3 then some (3, 0x80, 0xBF)
  else if b = 0xF4 then some (3, 0x80, 0x8F)
  else none

/-- The first fault at or after a position. -/
def firstFault (position : Nat) (pending : Option Pending) : List UInt8 → Option Malformed
  | [] => pending.map fun p => ⟨p.first, position, p.octet, .ending⟩
  | b :: rest =>
    match pending with
    | none =>
      if b < 0x80 then firstFault (position + 1) none rest
      else match lead? b with
        | none => some ⟨position, position + 1, b, .start⟩
        | some (owed, low, high) =>
          firstFault (position + 1) (some ⟨position, b, owed, low, high⟩) rest
    | some p =>
      if p.low ≤ b ∧ b ≤ p.high then
        if p.owed ≤ 1 then firstFault (position + 1) none rest
        else firstFault (position + 1) (some ⟨p.first, p.octet, p.owed - 1, 0x80, 0xBF⟩) rest
      else some ⟨p.first, position, p.octet, .continuation⟩

/-- The text that the bytes encode, or the first fault. -/
def decode (bytes : ByteArray) : Except Malformed String :=
  match String.fromUTF8? bytes with
  | some text => .ok text
  | none => .error ((firstFault 0 none bytes.toList).getD ⟨0, bytes.size, 0, .ending⟩)

/-- The bytes of a text are read as that text. -/
theorem decode_toUTF8 (s : String) : decode s.toUTF8 = .ok s := by
  have h : String.fromUTF8? s.toUTF8 = some s := by
    simp only [String.fromUTF8?]
    split
    · rfl
    · exact absurd s.isValidUTF8 (by assumption)
  unfold decode
  rw [h]

/-- The cause in words. -/
def Cause.message : Cause → String
  | .start => "invalid start byte"
  | .continuation => "invalid continuation byte"
  | .ending => "unexpected end of data"

/-- One octet is named by its value; of several only the positions are told. -/
def Malformed.message (m : Malformed) : String :=
  if m.last = m.first + 1 then
    "'utf-8' codec can't decode byte 0x" ++ String.ofList (Hex.digits 2 m.octet.toNat)
      ++ " in position " ++ toString m.first ++ ": " ++ m.cause.message
  else
    "'utf-8' codec can't decode bytes in position " ++ toString m.first ++ "-"
      ++ toString (m.last - 1) ++ ": " ++ m.cause.message

end TapeMachine.Text.Utf8
