/-!
# Classes of characters as ranges of code points

A class is a list of closed ranges, ascending and apart. Membership walks the list and stops at the
first range that starts above the code point, so early ranges (the ASCII ones) are found at once.
-/

namespace TapeMachine.Text

/-- A class of code points: closed ranges, ascending and apart. -/
abbrev Ranges := List (Nat × Nat)

/-- Does a code point lie in one of the ranges? -/
def inRanges : Ranges → Nat → Bool
  | [], _ => false
  | (lo, hi) :: rest, n => if n < lo then false else n ≤ hi || inRanges rest n

/-- Ranges are ascending and apart: each starts at least two above the end of the one before. -/
def Ascending : Ranges → Prop
  | [] => True
  | [(lo, hi)] => lo ≤ hi
  | (lo, hi) :: (lo', hi') :: rest => lo ≤ hi ∧ hi + 1 < lo' ∧ Ascending ((lo', hi') :: rest)

instance decidableAscending : (rs : Ranges) → Decidable (Ascending rs)
  | [] => isTrue trivial
  | [(lo, hi)] => inferInstanceAs (Decidable (lo ≤ hi))
  | (_, _) :: (lo', hi') :: rest =>
    have := decidableAscending ((lo', hi') :: rest)
    inferInstanceAs (Decidable (_ ∧ _ ∧ _))

end TapeMachine.Text
