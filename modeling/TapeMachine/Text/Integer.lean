import TapeMachine.Text.Blank
import TapeMachine.Text.DecimalDigit

/-!
# Reading and writing an integer

An integer is read from an optional sign and decimal digits of any script, with single underscores
allowed between digits, and white space around it. The information separators U+001C to U+001F are
white space elsewhere, but not here. It is written with a minus sign, if it is negative, and
decimal digits. More than `digitLimit` digits are neither read nor written.
-/

namespace TapeMachine.Text.Integer

/-- The white space that may stand around an integer. -/
def isMargin (c : Char) : Bool := isBlank c && !(0x1C ≤ c.toNat && c.toNat ≤ 0x1F)

/-- The most digits of an integer that is read or written. -/
def digitLimit : Nat := 4300

/-- The digits of a numeral, most significant first; single underscores may stand between them. -/
def digits? : List Char → Option (List Nat)
  | [] => none
  | [c] => (digitValue? c).map ([·])
  | c :: '_' :: d :: rest => do
    let first ← digitValue? c
    let others ← digits? (d :: rest)
    pure (first :: others)
  | c :: rest => do
    let first ← digitValue? c
    let others ← digits? rest
    pure (first :: others)

/-- The value of digits in base ten. -/
def value (ds : List Nat) : Nat := ds.foldl (fun n d => 10 * n + d) 0

/-- The natural number that a numeral stands for. -/
def natural? (cs : List Char) : Option Nat :=
  match digits? cs with
  | some ds => if ds.length ≤ digitLimit then some (value ds) else none
  | none => none

/-- The integer that a text stands for. -/
def read? (s : String) : Option Int :=
  let cs := ((s.toList.dropWhile isMargin).reverse.dropWhile isMargin).reverse
  match cs with
  | '-' :: rest => (natural? rest).map fun n => -(n : Int)
  | '+' :: rest => (natural? rest).map (↑·)
  | _ => (natural? cs).map (↑·)

/-- May an integer be written? The sign is no digit. -/
def isWritable (n : Int) : Bool := n.natAbs < Nat.pow 10 digitLimit

/-- An integer has too many digits to be written. -/
structure TooLong where
  deriving DecidableEq, Repr

/-- The refusal in words. -/
def TooLong.message (_ : TooLong) : String :=
  "Exceeds the limit (" ++ toString digitLimit
    ++ " digits) for integer string conversion; use sys.set_int_max_str_digits()"
    ++ " to increase the limit"

/-- The text of an integer. -/
def written (n : Int) : Except TooLong String :=
  if isWritable n then .ok (toString n) else .error ⟨⟩

@[simp] theorem isWritable_neg (n : Int) : isWritable (-n) = isWritable n := by
  simp [isWritable]

theorem isWritable_eq_false {n : Nat} (h : Nat.pow 10 digitLimit ≤ n) : isWritable n = false := by
  unfold isWritable
  rw [Int.natAbs_natCast]
  exact decide_eq_false (Nat.not_lt.2 h)

/-- An integer can be written if it has few enough digits to be read again. -/
theorem isWritable_iff_digits {n : Int} :
    isWritable n = true ↔ (Nat.toDigits 10 n.natAbs).length ≤ digitLimit := by
  have hpos : 0 < digitLimit := by decide
  unfold isWritable
  rw [decide_eq_true_eq]
  -- the limit is a large number, and must not be computed with
  generalize digitLimit = limit at hpos ⊢
  exact (Nat.length_toDigits_le_iff (by decide) hpos).symm

theorem isWritable_of_le {m n : Int} (h : m.natAbs ≤ n.natAbs) (hn : isWritable n = true) :
    isWritable m = true :=
  decide_eq_true (Nat.lt_of_le_of_lt h (of_decide_eq_true hn))

theorem written_eq_ok_iff {n : Int} {s : String} :
    written n = .ok s ↔ isWritable n = true ∧ toString n = s := by
  cases h : isWritable n <;> simp [written, h]

end TapeMachine.Text.Integer
