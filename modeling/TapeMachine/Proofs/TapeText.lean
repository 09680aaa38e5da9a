import Mathlib.Data.List.DropRight
import TapeMachine.Proofs.ReachableState
import TapeMachine.Proofs.ReachableTape

/-!
# The text of a tape

The text of a tape goes from cell zero to the last cell that holds something. Texts that put the
same into every cell differ in the blanks at their ends only, so there is one without any. The text
of a tape is that one: it is the input that makes the tape.

## Main results

- `Text.Loose.eq_of_inputCell`: a text without blanks at its end is told by what it puts into cells
- `Tape.ofInput_contents`, `Tape.contents_ofInput`: from a tape to its text and back
- `Machine.tape_isTextOf_contents`: all this holds of the tape of a machine, whatever is done to it
-/

namespace TapeMachine

open TapeMachine.Text (CodePoint Loose)
open TapeMachine.Tape (inputCell)

/-! ## Texts without blanks at the end -/

namespace Text.Loose

/-- No blank stands at the end of the text. -/
def IsTrimmed (text : Loose) : Prop := text.points.getLast? ≠ some (.char blankChar)

/-- The text without the blanks at its end. -/
def trimmed (text : Loose) : Loose := ofPoints (text.points.rdropWhile (· = .char blankChar))

theorem isTrimmed_trimmed (text : Loose) : text.trimmed.IsTrimmed := by
  intro hlast
  rw [trimmed, points_ofPoints] at hlast
  by_cases hnil : text.points.rdropWhile (· = .char blankChar) = []
  · simp [hnil] at hlast
  · rw [List.getLast?_eq_some_getLast hnil, Option.some.injEq] at hlast
    exact List.rdropWhile_last_not _ _ hnil (decide_eq_true hlast)

variable {text other : Loose}

theorem getElem?_points {i : Nat} (h : i < text.points.length) :
    text.points[i]? = some (inputCell text i) := by
  simp [inputCell, h]

theorem inputCell_of_length_le {i : Nat} (h : text.points.length ≤ i) :
    inputCell text i = .char blankChar := by
  simp [inputCell, List.getElem?_eq_none h]

/-- The last cell that a text without blanks at its end goes into is not blank in another one that
puts the same into every cell. -/
theorem IsTrimmed.length_le (h : text.IsTrimmed)
    (hcells : ∀ i, inputCell text i = inputCell other i) :
    text.points.length ≤ other.points.length := by
  by_contra hlt
  have hlast : text.points.getLast? = some (inputCell text (text.points.length - 1)) := by
    rw [List.getLast?_eq_getElem?]
    exact getElem?_points (by omega)
  rw [hcells, inputCell_of_length_le (by omega)] at hlast
  exact h hlast

/-- Texts without blanks at their ends are equal if they put the same into every cell. -/
theorem eq_of_inputCell (h : text.IsTrimmed) (h' : other.IsTrimmed)
    (hcells : ∀ i, inputCell text i = inputCell other i) : text = other := by
  have hlength : text.points.length = other.points.length :=
    Nat.le_antisymm (h.length_le hcells) (h'.length_le fun i => (hcells i).symm)
  have hpoints : text.points = other.points := by
    apply List.ext_getElem?
    intro i
    by_cases hi : i < text.points.length
    · rw [getElem?_points hi, getElem?_points (hlength ▸ hi), hcells]
    · rw [List.getElem?_eq_none (by omega), List.getElem?_eq_none (by omega)]
  rw [← ofPoints_points text, hpoints, ofPoints_points]

/-- A blank at the end is no different from the blanks behind it. -/
theorem inputCell_concat_blank (ps : List CodePoint) (i : Nat) :
    inputCell (ofPoints (ps ++ [.char blankChar])) i = inputCell (ofPoints ps) i := by
  simp only [inputCell, points_ofPoints]
  by_cases hi : i < ps.length
  · rw [List.getElem?_append_left hi]
  · rw [List.getElem?_append_right (by omega), List.getElem?_eq_none (l := ps) (by omega)]
    cases i - ps.length <;> rfl

/-- To leave out the blanks at the end changes no cell. -/
theorem inputCell_trimmed (text : Loose) (i : Nat) :
    inputCell text.trimmed i = inputCell text i := by
  have hdrop : ∀ ps : List CodePoint,
      inputCell (ofPoints (ps.rdropWhile (· = .char blankChar))) i = inputCell (ofPoints ps) i := by
    intro ps
    -- from the end, which is where the blanks are
    induction ps using List.reverseRecOn with
    | nil => rfl
    | append_singleton ps x ih =>
      by_cases hx : x = .char blankChar
      · rw [List.rdropWhile_concat_pos _ _ _ (by simp [hx]), ih, hx, inputCell_concat_blank]
      · rw [List.rdropWhile_concat_neg _ _ _ (by simp [hx])]
  rw [trimmed, hdrop, ofPoints_points]

end Text.Loose

/-! ## Tapes as texts -/

namespace Tape

variable {tape : Tape}

theorem mem_held_iff {i : Nat} : i ∈ tape.held ↔ tape.get? i ≠ none := by
  rw [Std.ExtTreeMap.mem_iff_isSome_getElem?, Option.isSome_iff_ne_none]
  rfl

/-- The length of a tape goes beyond its last cell by one. -/
theorem length_eq (tape : Tape) :
    tape.length = ((tape.cells.map Prod.fst).max?.map (· + 1)).getD 0 := by
  have hmax : (tape.cells.map Prod.fst).max? = tape.held.maxKey? := by
    rw [cells, Std.ExtTreeMap.map_fst_toList_eq_keys]
    cases hkey : tape.held.maxKey? with
    | none =>
      rw [Std.ExtTreeMap.maxKey?_eq_none_iff] at hkey
      simp [hkey]
    | some n =>
      rw [Std.ExtTreeMap.maxKey?_eq_some_iff_mem_and_forall] at hkey
      rw [List.max?_eq_some_iff]
      refine ⟨Std.ExtTreeMap.mem_keys.2 hkey.1, fun k hk => ?_⟩
      exact Nat.isLE_compare.1 (hkey.2 k (Std.ExtTreeMap.mem_keys.1 hk))
  rw [length, hmax]

/-- Behind its length a tape is blank. -/
theorem read_of_length_le {i : Nat} (h : tape.length ≤ i) : tape.read i = blank := by
  have hget : tape.get? i = none := by
    by_contra hne
    have hmem := mem_held_iff.2 hne
    cases hkey : tape.held.maxKey? with
    | none =>
      rw [Std.ExtTreeMap.maxKey?_eq_none_iff] at hkey
      simp [hkey] at hmem
    | some n =>
      have hle := Nat.isLE_compare.1
        ((Std.ExtTreeMap.maxKey?_eq_some_iff_mem_and_forall.1 hkey).2 i hmem)
      simp only [length, hkey, Option.map_some, Option.getD_some] at h
      omega
  rw [read, hget]
  rfl

/-- The last cell of a clean tape is not blank. -/
theorem IsClean.read_ne_blank (h : tape.IsClean) {n : Nat} (hn : tape.length = n + 1) :
    tape.read n ≠ blank := by
  have hkey : tape.held.maxKey? = some n := by
    cases hkey : tape.held.maxKey? with
    | none => simp [length, hkey] at hn
    | some k =>
      simp only [length, hkey, Option.map_some, Option.getD_some] at hn
      rw [show k = n by omega]
  have hget := mem_held_iff.1 (Std.ExtTreeMap.maxKey?_mem hkey)
  rw [h.get?_eq] at hget
  intro hblank
  exact hget (if_pos hblank)

/-- What each cell of a lettered tape shows. -/
theorem IsLettered.exists_letters (h : tape.IsLettered) :
    ∃ letter : Nat → CodePoint, ∀ i, tape.read i = .ofPoints [letter i] :=
  Classical.skolem.1 h

section

variable {letter : Nat → CodePoint} (h : ∀ i, tape.read i = .ofPoints [letter i])

include h

theorem points_contents : tape.contents.points = (List.range tape.length).map letter := by
  rw [contents, Loose.points_join, marks, List.flatMap_map, List.map_eq_flatMap]
  simp [h]

theorem letter_eq_blankChar_iff (i : Nat) : letter i = .char blankChar ↔ tape.read i = blank := by
  rw [h, blank_eq_ofPoints]
  constructor
  · intro hblank
    rw [hblank]
  · intro hblank
    simpa using congrArg Loose.points hblank

/-- The text of a tape puts into each cell what stands there. -/
theorem inputCell_contents (i : Nat) : inputCell tape.contents i = letter i := by
  rw [inputCell, points_contents h]
  by_cases hi : i < tape.length
  · simp [hi]
  · have hblank : letter i = .char blankChar :=
      (letter_eq_blankChar_iff h i).2 (read_of_length_le (Nat.le_of_not_lt hi))
    simp [hi, hblank]

theorem isTrimmed_contents (hclean : tape.IsClean) : tape.contents.IsTrimmed := by
  intro hlast
  rw [points_contents h] at hlast
  cases hlength : tape.length with
  | zero => simp [hlength] at hlast
  | succ n =>
    rw [hlength, List.range_succ, List.map_append, List.map_singleton, List.getLast?_concat,
      Option.some.injEq, letter_eq_blankChar_iff h] at hlast
    exact hclean.read_ne_blank hlength hlast

end

theorem clean_ofInput (input : Loose) : (ofInput input).IsClean :=
  clean_empty.writeFrom 0 (marksOf input)

/-- The text of a tape is the input that makes the tape. -/
theorem ofInput_contents (hclean : tape.IsClean) (h : tape.IsLettered) :
    ofInput tape.contents = tape := by
  obtain ⟨letter, hletter⟩ := h.exists_letters
  apply eq_of_read (clean_ofInput tape.contents) hclean
  intro i
  rw [read_ofInput, inputCell_contents hletter, hletter]

/-- The text of the tape that an input makes is the input without the blanks at its end. -/
theorem contents_ofInput (input : Loose) : (ofInput input).contents = input.trimmed := by
  have hread := read_ofInput input
  have htrimmed := isTrimmed_contents hread (clean_ofInput input)
  apply Loose.eq_of_inputCell htrimmed input.isTrimmed_trimmed
  intro i
  rw [inputCell_contents hread, Loose.inputCell_trimmed]

/-- A text is the one that a tape is told by: no blank stands at its end, it goes to the last cell
that holds something, and a machine that loads it has the tape. -/
structure IsTextOf (tape : Tape) (text : Loose) : Prop where
  trimmed : text.points.getLast? ≠ some (.char blankChar)
  length_eq : text.points.length = ((tape.cells.map Prod.fst).max?.map (· + 1)).getD 0
  tape_load : ∀ m : Machine, (m.load text).tape = tape

theorem isTextOf_contents (hclean : tape.IsClean) (h : tape.IsLettered) :
    tape.IsTextOf tape.contents := by
  obtain ⟨letter, hletter⟩ := h.exists_letters
  refine ⟨isTrimmed_contents hletter hclean, ?_, fun m => ofInput_contents hclean h⟩
  rw [points_contents hletter, List.length_map, List.length_range, Tape.length_eq]

end Tape

namespace Machine

/-- A machine that has loaded an input shows it without the blanks at its end, and whatever is done
to a machine, its tape and the text on it tell each other while its program is a compiled one. -/
theorem tape_isTextOf_contents :
    (∀ (m : Machine) (input : Loose), (m.load input).tape.contents =
      .ofPoints (input.points.rdropWhile (· = .char blankChar))) ∧
    ∀ {source : String} {program : Program} {table : Table} {capacity : Option Nat} {m : Machine},
      Program.ofSource source = .ok program → ReachableFrom table capacity m →
      m.table = program.table → m.tape.IsTextOf m.tape.contents := by
  refine ⟨fun m input => Tape.contents_ofInput input, ?_⟩
  intro source program table capacity m hsource hm htable
  have hcompiled : m.table.IsCompiled := by
    rw [htable]
    exact Program.isCompiled_of_ofSource hsource
  have hsound := isKept_isSound.reachableFrom (isSound_ofTable table capacity) hm
  exact Tape.isTextOf_contents hsound.clean (isLettered_of_reachableFrom hm hcompiled)

/-- A program that erases the second letter of its input and comes back to the first one. -/
def fadingProgram : Program :=
  let table := Program.tableOf [⟨"q0", "a", "a", "R", "q1", 0⟩, ⟨"q1", "b", "_", "L", "q0", 1⟩]
  ⟨table, Graph.ofTable table⟩

/-- The operations that lead to the erased letter. -/
def fadingOperations : List Operation := [.load "ab__", .run 9, .stepBack]

/-- The text before and after a letter was erased. -/
theorem tape_isTextOf_contents_fading :
    Program.ofSource "q0 a/a,R q1\nq1 b/_,L q0" = .ok fadingProgram ∧
      ((ofTable fadingProgram.table none).load "ab__").tape.contents = "ab" ∧
      ReachableFrom fadingProgram.table none
        ((ofTable fadingProgram.table none).performAll fadingOperations) ∧
      ((ofTable fadingProgram.table none).performAll fadingOperations).tape.IsTextOf "a" := by
  obtain ⟨hload, htext⟩ := tape_isTextOf_contents
  have hsource : Program.ofSource "q0 a/a,R q1\nq1 b/_,L q0" = .ok fadingProgram := by
    decide +kernel
  have hreachable : ReachableFrom fadingProgram.table none
      ((ofTable fadingProgram.table none).performAll fadingOperations) :=
    .perform .stepBack (.perform (.run 9) (.perform (.load "ab__") .fresh))
  have hcontents : ((ofTable fadingProgram.table none).performAll
      fadingOperations).tape.contents = "a" := by
    rw [Tape.contents, Tape.marks, Tape.length_eq]
    decide +kernel
  have hfading := htext hsource hreachable (by decide +kernel)
  rw [hcontents] at hfading
  refine ⟨hsource, ?_, hreachable, hfading⟩
  rw [hload]
  decide +kernel

end Machine

end TapeMachine
