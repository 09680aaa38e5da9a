import TapeMachine.Binary64.Basic

/-!
# The shortest decimal of a number

The reals that round to a number form an interval around it, from halfway to the neighbour below to
halfway to the neighbour above; the ends belong to it if the mantissa is even. The decimal that is
written is one of fewest digits in this interval, and of those the nearest to the number. The two
neighbours of the number on the grid of `n` digits are tried for `n` from one to seventeen, which
is always enough.
-/

namespace TapeMachine.Binary64

/-- The decimal `digits * 10 ^ exponent`. -/
structure Decimal where
  digits : Nat
  exponent : Int
  deriving DecidableEq, Repr

/-- Compares `a * 10 ^ i` with `n * 2 ^ j`. -/
def compareScaled (a : Nat) (i : Int) (n : Nat) (j : Int) : Ordering :=
  compare (a * power 10 i * power 2 (-j)) (n * power 2 j * power 10 (-i))

/-- Does a decimal lie among the reals that round to `m * 2 ^ e`? The neighbour below a power of
two is half as far away as the one above. -/
def readsBack (m : Nat) (e : Int) (d : Decimal) : Bool :=
  let low := if m = leastFullMantissa ∧ leastExponent < e then 4 * m - 1 else 4 * m - 2
  let ends := m % 2 == 0
  let below := compareScaled d.digits d.exponent low (e - 2)
  let above := compareScaled d.digits d.exponent (4 * m + 2) (e - 2)
  (below == .gt || (ends && below == .eq)) && (above == .lt || (ends && above == .eq))

/-- The least `k` with `m * 2 ^ e < 10 ^ k`, for a positive mantissa. -/
def magnitude (m : Nat) (e : Int) : Int :=
  let shifted := m * power 2 e * power 10 400 / power 2 (-e)
  ((Nat.toDigits 10 shifted).length : Int) - 400

/-- The decimal of `n` digits nearest to `m * 2 ^ e` among those that read back, if one does. -/
def atDigits? (m : Nat) (e : Int) (n : Nat) : Option Decimal :=
  let grid := magnitude m e - n
  let num := m * power 2 e * power 10 (-grid)
  let den := power 2 (-e) * power 10 grid
  let low : Decimal := ⟨num / den, grid⟩
  let high : Decimal := ⟨num / den + 1, grid⟩
  match readsBack m e low, readsBack m e high with
  | true, true => some ⟨roundDiv num den, grid⟩
  | true, false => some low
  | false, true => some high
  | false, false => none

/-- The decimal without zeros at its end; `fuel` bounds their number. -/
def dropZeros : (fuel : Nat) → Decimal → Decimal
  | 0, d => d
  | fuel + 1, d =>
    if d.digits % 10 = 0 ∧ d.digits ≠ 0 then dropZeros fuel ⟨d.digits / 10, d.exponent + 1⟩ else d

/-- The shortest decimal that reads back as `m * 2 ^ e`, for a positive mantissa. -/
def shortest (m : Nat) (e : Int) : Decimal :=
  match (List.range' 1 17).findSome? (atDigits? m e) with
  | some d => dropZeros 20 d
  | none => ⟨m * power 2 e * power 5 (-e), -((-e).toNat : Int)⟩

end TapeMachine.Binary64
