import TapeMachine.Text.Loose

/-!
# States, symbols and directions

States and the symbols of programs are texts. A program read from a text has one-character symbols
and names only the three directions below; a table put together by hand may hold anything, and a
move that is no direction shows when it is made.

An input need not be whole, so what stands on a tape is a loose text. A symbol is one as well.
-/

namespace TapeMachine

/-- The name of a state. -/
abbrev State := String

/-- What a transition reads or writes. -/
abbrev Symbol := String

/-- What a tape cell holds. -/
abbrev Mark := Text.Loose

/-- Every run starts in this state. -/
def startState : State := "q0"

/-- Entering this state accepts. -/
def acceptState : State := "ha"

/-- The symbol of a cell that was never written, or was erased. -/
def blank : Symbol := "_"

/-- The blank symbol as a character of an input. -/
def blankChar : Char := '_'

/-- Where the head goes after a cell is written. -/
inductive Direction where
  | left
  | right
  | stay
  deriving DecidableEq, Repr

namespace Direction

/-- The letter that stands for a direction in a program. -/
def letter : Direction → String
  | .left => "L"
  | .right => "R"
  | .stay => "S"

/-- The direction that a letter stands for. -/
def ofLetter? : String → Option Direction
  | "L" => some .left
  | "R" => some .right
  | "S" => some .stay
  | _ => none

/-- The change of the head position. -/
def shift : Direction → Int
  | .left => -1
  | .right => 1
  | .stay => 0

/-- Every direction, in the order they are listed in. -/
def all : List Direction := [.left, .right, .stay]

/-- The head position after a move; there is none to the left of cell zero. -/
def from? : Direction → Nat → Option Nat
  | .left, 0 => none
  | .left, n + 1 => some n
  | .right, n => some (n + 1)
  | .stay, n => some n

@[simp] theorem ofLetter?_letter (d : Direction) : ofLetter? d.letter = some d := by
  cases d <;> rfl

/-- The head position changes by the shift, and a move fails just when it would go below zero. -/
theorem from?_eq (d : Direction) (n : Nat) :
    d.from? n = if (n : Int) + d.shift < 0 then none else some ((n : Int) + d.shift).toNat := by
  cases d with
  | left => cases n with
    | zero => rfl
    | succ n => rw [if_neg (by simp only [shift]; omega)]; simp only [from?, shift]; congr; omega
  | right => rw [if_neg (by simp only [shift]; omega)]; simp only [from?, shift]; congr
  | stay => rw [if_neg (by simp only [shift]; omega)]; simp only [from?, shift]; congr

theorem from?_of_crash {d : Direction} {n : Nat} (h : d = .left ∧ n = 0) : d.from? n = none := by
  obtain ⟨rfl, rfl⟩ := h
  rfl

/-- Only a move to the left from cell zero fails. -/
theorem from?_of_not_crash {d : Direction} {n : Nat} (h : ¬ (d = .left ∧ n = 0)) :
    d.from? n = some ((n : Int) + d.shift).toNat := by
  have hn : ¬ (n : Int) + d.shift < 0 := by
    cases d with
    | left =>
      have : n ≠ 0 := fun hn => h ⟨rfl, hn⟩
      simp only [shift]
      omega
    | right => simp only [shift]; omega
    | stay => simp only [shift]; omega
  rw [from?_eq, if_neg hn]

/-- A move goes at most one cell to the right. -/
theorem le_of_from? {d : Direction} {n k : Nat} (h : d.from? n = some k) : k ≤ n + 1 := by
  cases d with
  | left => cases n with
    | zero => contradiction
    | succ n => simp only [from?, Option.some.injEq] at h; omega
  | right => simp only [from?, Option.some.injEq] at h; omega
  | stay => simp only [from?, Option.some.injEq] at h; omega

/-- A move that stays on the tape can be made anywhere further to the right. -/
theorem from?_add {d : Direction} {n k : Nat} (h : d.from? n = some k) (i : Nat) :
    d.from? (n + i) = some (k + i) := by
  cases d with
  | left => cases n with
    | zero => contradiction
    | succ n =>
      simp only [from?, Option.some.injEq] at h
      rw [← h, Nat.add_right_comm]
      rfl
  | right =>
    simp only [from?, Option.some.injEq] at h ⊢
    omega
  | stay =>
    simp only [from?, Option.some.injEq] at h ⊢
    omega

end Direction

end TapeMachine
