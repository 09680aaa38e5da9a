import TapeMachine.Json.Message
import TapeMachine.Json.Chunks

/-!
# Names of entries

The entries of a configuration have names. In a file that holds an object all names are texts; a
list of pairs may name entries by other plain values too. Such names are no settings, but the
entries are kept.

Equal numbers are one name however they are written, and a truth value is the number one or zero:
`1`, `1.0` and `true` name the same entry. `Name.Same` is this relation.
-/

namespace TapeMachine.Config

/-- The name of an entry. -/
inductive Name where
  | text (s : Text.Loose)
  | null
  | bool (b : Bool)
  | int (n : Int)
  | real (x : Binary64)
  deriving DecidableEq, Repr

namespace Name

/-- The form that all names of an entry have in common. -/
def canonical : Name → Name
  | .bool b => .int (if b then 1 else 0)
  | .real x =>
    match x.integer? with
    | some n => .int n
    | none => .real x
  | name => name

/-- Two names name the same entry. -/
def Same (a b : Name) : Prop := a.canonical = b.canonical

instance (a b : Name) : Decidable (Same a b) := inferInstanceAs (Decidable (_ = _))

theorem Same.refl (a : Name) : Same a a := rfl

theorem Same.symm {a b : Name} (h : Same a b) : Same b a := Eq.symm h

theorem Same.trans {a b c : Name} (hab : Same a b) (hbc : Same b c) : Same a c := Eq.trans hab hbc

/-- Texts are one name only if they are equal. -/
@[simp] theorem same_text_text (s t : Text.Loose) : Same (.text s) (.text t) ↔ s = t := by
  simp [Same, canonical]

/-- The numbers that tell a name: its kind, and what it is. -/
def codes : Name → List Int
  | .null => [0]
  | .text s => 1 :: s.codes.map Int.ofNat
  | .bool b => [2, b.toInt]
  | .int n => [3, n]
  | .real (.finite negative mantissa exponent) => [4, negative.toInt, mantissa, exponent]
  | .real (.infinite negative) => [5, negative.toInt]
  | .real .nan => [6]

/-- The name that numbers tell. -/
def ofCodes : List Int → Name
  | 1 :: codes => .text (.ofCodes (codes.map Int.toNat))
  | [2, b] => .bool (b == 1)
  | [3, n] => .int n
  | [4, negative, mantissa, exponent] => .real (.finite (negative == 1) mantissa.toNat exponent)
  | [5, negative] => .real (.infinite (negative == 1))
  | [6] => .real .nan
  | _ => .null

@[simp] theorem toInt_beq_one (b : Bool) : (b.toInt == 1) = b := by cases b <;> rfl

theorem ofCodes_codes (a : Name) : ofCodes a.codes = a := by
  cases a with
  | text s => simp [codes, ofCodes, Function.comp_def]
  | real x => cases x <;> simp [codes, ofCodes]
  | _ => simp [codes, ofCodes]

theorem codes_inj {a b : Name} (h : a.codes = b.codes) : a = b := by
  rw [← ofCodes_codes a, h, ofCodes_codes]

/-- Names are ordered by kind, and then by what they are. -/
instance : Ord Name := ⟨compareOn codes⟩

instance : Std.TransOrd Name := inferInstanceAs (Std.TransCmp (compareOn codes))

instance : Std.LawfulEqOrd Name where
  eq_of_compare h := codes_inj (Std.LawfulEqOrd.eq_of_compare h)

/-- The name as a value. -/
def value : Name → Json
  | .text s => .str s
  | .null => .null
  | .bool b => .bool b
  | .int n => .int n
  | .real x => .real x

/-- The name as the name of a field. -/
def written : Name → Text.Loose
  | .text s => s
  | name => name.value.compact

/-- Has the name of a field a text? A long integer has none. -/
def isWritable : Name → Bool
  | .int n => Text.Integer.isWritable n
  | _ => true

/-- The name as a message shows it. -/
def shown (name : Name) : Text.Loose := name.value.shown

end Name

end TapeMachine.Config
