import TapeMachine.Tape

/-!
# Clean tapes

To write the blank is to erase, so no cell ever holds a blank. Tapes of that kind are told by what
is read on them, and marks that stand side by side can be taken away at either end.

## Main results

- `eq_of_read`: clean tapes on which the same is read are equal
- `write_read`: to write what is read changes nothing
- `writeFrom_erase_first` / `writeFrom_erase_last`: marks in a row without the first or the last one
-/

namespace TapeMachine.Tape

/-- No cell holds the blank. -/
def IsClean (tape : Tape) : Prop := ∀ i, tape.get? i ≠ some (blank : Mark)

theorem clean_empty : empty.IsClean := by
  intro i
  rw [get?_empty]
  exact (Option.some_ne_none _).symm

theorem IsClean.write {tape : Tape} (h : tape.IsClean) (i : Nat) (s : Mark) :
    (tape.write i s).IsClean := by
  intro j
  rw [get?_write]
  split
  · split
    · exact (Option.some_ne_none _).symm
    · rename_i hs
      exact fun e => hs (Option.some.inj e)
  · exact h j

theorem IsClean.writeFrom {tape : Tape} (h : tape.IsClean) (i : Nat) (marks : List Mark) :
    (tape.writeFrom i marks).IsClean := by
  induction marks generalizing tape i with
  | nil => exact h
  -- the first mark is written before the others
  | cons s rest ih => exact ih (h.write i s) (i + 1)

/-- A clean tape holds what is read on it, except for blanks. -/
theorem IsClean.get?_eq {tape : Tape} (h : tape.IsClean) (i : Nat) :
    tape.get? i = if tape.read i = blank then none else some (tape.read i) := by
  cases hi : tape.get? i with
  | none => rw [read, hi]; rfl
  | some s =>
    have hread : tape.read i = s := by rw [read, hi]; rfl
    have hs : s ≠ blank := fun e => h i (by rw [hi, e])
    rw [hread, if_neg hs]

/-- Clean tapes on which the same is read are equal. -/
theorem eq_of_read {t u : Tape} (ht : t.IsClean) (hu : u.IsClean) (h : ∀ i, t.read i = u.read i) :
    t = u := by
  refine ext fun i => ?_
  rw [ht.get?_eq, hu.get?_eq, h]

/-- To write what is read changes nothing. -/
theorem write_read {tape : Tape} (h : tape.IsClean) {i : Nat} {s : Mark} (hs : tape.read i = s) :
    tape.write i s = tape := by
  refine eq_of_read (h.write i s) h fun j => ?_
  rw [read_write]
  split
  · rename_i hij
    rw [← hij, hs]
  · rfl

/-! ## Marks in a row -/

theorem read_empty_writeFrom (i j : Nat) (marks : List Mark) :
    (empty.writeFrom i marks).read j = if i ≤ j then (marks[j - i]?).getD blank else blank := by
  rw [read_writeFrom, read_empty]

theorem writeFrom_erase_first (i : Nat) (s : Mark) (marks : List Mark) :
    (empty.writeFrom i (s :: marks)).write i blank = empty.writeFrom (i + 1) marks := by
  refine eq_of_read ((clean_empty.writeFrom i _).write i _) (clean_empty.writeFrom _ _) fun j => ?_
  rw [read_write, read_empty_writeFrom, read_empty_writeFrom]
  -- the erased cell, the cells of the other marks, and the cells to the left of all
  by_cases hij : i = j
  · rw [if_pos hij, if_neg (by omega)]
  · by_cases hlt : i < j
    · rw [if_neg hij, if_pos (by omega), if_pos (by omega), show j - i = (j - (i + 1)) + 1 by omega,
        List.getElem?_cons_succ]
    · rw [if_neg hij, if_neg (by omega), if_neg (by omega)]

theorem writeFrom_erase_last (i : Nat) (marks : List Mark) (s : Mark) :
    (empty.writeFrom i (marks ++ [s])).write (i + marks.length) blank =
      empty.writeFrom i marks := by
  refine eq_of_read ((clean_empty.writeFrom i _).write _ _) (clean_empty.writeFrom i _) fun j => ?_
  rw [read_write, read_empty_writeFrom, read_empty_writeFrom]
  by_cases hlast : i + marks.length = j
  · -- nothing stands behind the marks
    rw [if_pos hlast, if_pos (by omega), List.getElem?_eq_none (by omega)]
    rfl
  · rw [if_neg hlast]
    by_cases hij : i ≤ j
    · rw [if_pos hij, if_pos hij]
      by_cases hlt : j - i < marks.length
      · rw [List.getElem?_append_left hlt]
      · rw [List.getElem?_eq_none (by simp; omega), List.getElem?_eq_none (by omega)]
    · rw [if_neg hij, if_neg hij]

end TapeMachine.Tape
