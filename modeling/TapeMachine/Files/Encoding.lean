import TapeMachine.Text.Hex
import TapeMachine.Text.Loose

/-!
# Paths in octets

A path is passed to the system in UTF-8. A half from U+DC80 to U+DCFF stands for the octet that its
number ends with, so that a path that is no UTF-8 can be told as well; no other half can be passed
on. Two paths are the same for the system if they have the same octets; `spelling` is the spelling
that all of them have in common, in which halves stand only for octets that encode no character.
-/

namespace TapeMachine.Files

open Text (CodePoint Half Loose)

/-- The octet that a half stands for. -/
def octet? (h : Half) : Option UInt8 :=
  if 0xDC80 ≤ h.code ∧ h.code ≤ 0xDCFF then some (h.code - 0xDC00).toUInt8 else none

/-- The half that stands for an octet. -/
def halfOf (octet : UInt8) : Half := ⟨⟨0x400 + octet.toNat, by have := octet.toNat_lt; omega⟩⟩

/-- An octet that is no character by itself is told from the half that stands for it. -/
theorem octet?_halfOf {octet : UInt8} (h : 0x80 ≤ octet) : octet? (halfOf octet) = some octet := by
  have h₁ : 0x80 ≤ octet.toNat := UInt8.le_iff_toNat_le.1 h
  have h₂ := octet.toNat_lt
  have h₃ : (halfOf octet).code = 0xDC00 + octet.toNat := by simp only [halfOf, Half.code]; omega
  have h₄ : 0xDC80 ≤ 0xDC00 + octet.toNat ∧ 0xDC00 + octet.toNat ≤ 0xDCFF := by omega
  simp [octet?, h₃, h₄]

/-- Why a path cannot be passed on: the position of the first half that stands for no octet, the
half itself, and how many halves stand there side by side. -/
structure Unencodable where
  first : Nat
  half : Half
  count : Nat
  deriving DecidableEq, Repr

/-- The reason in words. One half is named by its number; of several only the positions are told. -/
def Unencodable.message (e : Unencodable) : String :=
  if e.count = 1 then
    "'utf-8' codec can't encode character '\\u" ++ String.ofList (Text.Hex.digits 4 e.half.code)
      ++ "' in position " ++ toString e.first ++ ": surrogates not allowed"
  else
    "'utf-8' codec can't encode characters in position " ++ toString e.first ++ "-"
      ++ toString (e.first + e.count - 1) ++ ": surrogates not allowed"

/-- The first half that stands for no octet, at or after a position. -/
def firstUnencodable (position : Nat) : List CodePoint → Option Unencodable
  | [] => none
  | .char _ :: rest => firstUnencodable (position + 1) rest
  | .half h :: rest =>
    if (octet? h).isSome then firstUnencodable (position + 1) rest
    else some ⟨position, h, (rest.takeWhile CodePoint.isHalf).length + 1⟩

/-- The octets of a character or a half. -/
def octetsOf : CodePoint → List UInt8
  | .char c => (String.singleton c).toUTF8.toList
  | .half h => (octet? h).toList

/-- What the octets from a position on encode. An octet that encodes no character with those behind
it is told by a half. -/
def pointsFrom (octets : ByteArray) (position : Nat) : List CodePoint :=
  if h : position < octets.size then
    match octets.utf8DecodeChar? position with
    | some c => .char c :: pointsFrom octets (position + c.utf8Size)
    | none => .half (halfOf octets[position]) :: pointsFrom octets (position + 1)
  else []
termination_by octets.size - position
decreasing_by
  · have := c.utf8Size_pos; omega
  · omega

/-- The spelling of a path that is told by its octets. -/
def spelling : Loose → Except Unencodable Loose
  | .whole s => .ok (.whole s)
  | .torn front half rest =>
    let points := Loose.points (.torn front half rest)
    match firstUnencodable 0 points with
    | some e => .error e
    | none => .ok (.ofPoints (pointsFrom ⟨(points.flatMap octetsOf).toArray⟩ 0))

@[simp] theorem spelling_whole (s : String) : spelling (.whole s) = .ok (.whole s) := rfl

/-- How many octets a path or a name has. -/
def octetCount : Loose → Nat
  | .whole s => s.utf8ByteSize
  | t => (t.points.flatMap octetsOf).length

end TapeMachine.Files
