import TapeMachine.Tape

/-!
# Lettered tapes

An input puts one character into each cell, and a program that was read from a text writes one
character at a time. So every cell of a tape shows one character, the blank if nothing else, and a
look-up can speak of characters instead of marks.

## Main results

- `read_ofInput`: what the cells of an input show
- `isLettered_ofInput`, `IsLettered.write`: single characters are all that there is on a tape
-/

namespace TapeMachine.Tape

open TapeMachine.Text (CodePoint Loose)

/-- What an input puts into a cell. Behind its end there are blanks. -/
def inputCell (input : Loose) (i : Nat) : CodePoint := (input.points[i]?).getD (.char blankChar)

theorem blank_eq_ofPoints : (blank : Mark) = .ofPoints [.char blankChar] := rfl

theorem read_ofInput (input : Loose) (i : Nat) :
    (ofInput input).read i = .ofPoints [inputCell input i] := by
  rw [ofInput, read_ofMarks, marksOf, List.getElem?_map, inputCell]
  cases input.points[i]? with
  | none => exact blank_eq_ofPoints
  | some x => rfl

/-- Every cell shows one character, or half of one. -/
def IsLettered (tape : Tape) : Prop := ∀ i, ∃ x : CodePoint, tape.read i = .ofPoints [x]

theorem isLettered_ofInput (input : Loose) : (ofInput input).IsLettered :=
  fun i => ⟨inputCell input i, read_ofInput input i⟩

theorem IsLettered.write {tape : Tape} (h : tape.IsLettered) (i : Nat) (c : Char) :
    (tape.write i (.singleton c : Symbol)).IsLettered := by
  intro j
  rw [read_write]
  split
  · exact ⟨.char c, (Loose.ofPoints_char c).symm⟩
  · exact h j

end TapeMachine.Tape
