import Std.Data.ExtTreeMap
import TapeMachine.Alphabet

/-!
# Tapes

A tape is infinite to the right and has finitely many cells that were written and not erased. It is
kept as the map of these cells, so two tapes with the same cells are the same value. `read` is the
view that everything is said through: what stands in a cell, blanks included.
-/

namespace TapeMachine

/-- The cells that hold something, by position. -/
structure Tape where
  held : Std.ExtTreeMap Nat Mark
  deriving DecidableEq

namespace Tape

/-- The blank tape. -/
def empty : Tape := ⟨∅⟩

/-- What was written into a cell and not erased. -/
def get? (tape : Tape) (i : Nat) : Option Mark := tape.held[i]?

/-- What stands in a cell. -/
def read (tape : Tape) (i : Nat) : Mark := (tape.get? i).getD blank

/-- Puts a mark into a cell. -/
def set (tape : Tape) (i : Nat) (s : Mark) : Tape := ⟨tape.held.insert i s⟩

/-- Empties a cell. -/
def erase (tape : Tape) (i : Nat) : Tape := ⟨tape.held.erase i⟩

/-- Writes a mark; to write the blank empties the cell. -/
def write (tape : Tape) (i : Nat) (s : Mark) : Tape :=
  if s = blank then tape.erase i else tape.set i s

/-- The cells that hold something, ascending by position. -/
def cells (tape : Tape) : List (Nat × Mark) := tape.held.toList

/-- The number of cells from cell zero up to the last one that holds something. -/
def length (tape : Tape) : Nat := (tape.held.maxKey?.map (· + 1)).getD 0

/-- Writes marks side by side, from a position on. -/
def writeFrom (tape : Tape) (i : Nat) : List Mark → Tape
  | [] => tape
  | s :: rest => writeFrom (tape.write i s) (i + 1) rest

/-- The tape of a list of marks, from cell zero on. -/
def ofMarks (marks : List Mark) : Tape := empty.writeFrom 0 marks

/-- The marks that an input is put on the tape as: one for each character or half. -/
def marksOf (input : Text.Loose) : List Mark := input.points.map fun p => .ofPoints [p]

/-- The tape of an input, from cell zero on. -/
def ofInput (input : Text.Loose) : Tape := ofMarks (marksOf input)

/-- The marks from cell zero up to the last cell that holds something. -/
def marks (tape : Tape) : List Mark := (List.range tape.length).map tape.read

/-- The text on the tape, from cell zero up to the last cell that holds something. -/
def contents (tape : Tape) : Text.Loose := .join tape.marks

/-- The positions at most `radius` away from the head, clipped at cell zero. -/
def windowPositions (head : Nat) (radius : Int) : List Nat :=
  let first := ((head : Int) - radius).toNat
  List.range' first (((head : Int) + radius + 1).toNat - first)

/-- The cells around the head, with their positions. -/
def window (tape : Tape) (head : Nat) (radius : Int) : List (Nat × Mark) :=
  (windowPositions head radius).map fun i => (i, tape.read i)

/-! ## What an operation does to a cell -/

/-- Tapes that hold the same are the same. -/
@[ext] theorem ext {t u : Tape} (h : ∀ i, t.get? i = u.get? i) : t = u := by
  cases t; cases u
  exact congrArg Tape.mk (Std.ExtTreeMap.ext_getElem? h)

@[simp] theorem get?_empty (i : Nat) : empty.get? i = none := by
  simp [get?, empty]

theorem get?_set (tape : Tape) (i j : Nat) (s : Mark) :
    (tape.set i s).get? j = if i = j then some s else tape.get? j := by
  simp [get?, set, Std.ExtTreeMap.getElem?_insert]

theorem get?_erase (tape : Tape) (i j : Nat) :
    (tape.erase i).get? j = if i = j then none else tape.get? j := by
  simp [get?, erase, Std.ExtTreeMap.getElem?_erase]

theorem get?_write (tape : Tape) (i j : Nat) (s : Mark) :
    (tape.write i s).get? j =
      if i = j then (if s = blank then none else some s) else tape.get? j := by
  unfold write
  split <;> simp [get?_set, get?_erase]

@[simp] theorem read_empty (i : Nat) : empty.read i = blank := by
  simp [read]

/-- A write shows in its own cell and in no other. -/
theorem read_write (tape : Tape) (i j : Nat) (s : Mark) :
    (tape.write i s).read j = if i = j then s else tape.read j := by
  simp only [read, get?_write]
  grind

theorem mem_cells {tape : Tape} {i : Nat} {s : Mark} :
    (i, s) ∈ tape.cells ↔ tape.get? i = some s :=
  Std.ExtTreeMap.mem_toList_iff_getElem?_eq_some

theorem ascending_cells (tape : Tape) : tape.cells.Pairwise fun a b => a.1 < b.1 :=
  Std.ExtTreeMap.ordered_keys_toList.imp fun h => Nat.compare_eq_lt.1 h

/-- Marks written side by side show in their cells. -/
theorem read_writeFrom (tape : Tape) (i j : Nat) (marks : List Mark) :
    (tape.writeFrom i marks).read j =
      if i ≤ j then (marks[j - i]?).getD (tape.read j) else tape.read j := by
  induction marks generalizing tape i with
  | nil => simp [writeFrom]
  | cons s rest ih =>
    rw [writeFrom, ih, read_write]
    by_cases h : i = j
    · subst h; simp [show ¬ i + 1 ≤ i by omega]
    · by_cases hj : i ≤ j
      · rw [if_pos (by omega : i + 1 ≤ j), if_pos hj, if_neg h,
          show j - i = (j - (i + 1)) + 1 by omega, List.getElem?_cons_succ]
      · rw [if_neg (by omega), if_neg hj, if_neg h]

/-- The tape of marks shows them from cell zero on. -/
theorem read_ofMarks (marks : List Mark) (i : Nat) :
    (ofMarks marks).read i = (marks[i]?).getD blank := by
  simp [ofMarks, read_writeFrom]

end Tape

end TapeMachine
