import Mathlib.Control.Monad.Basic
import TapeMachine.Proofs.CleanTape
import TapeMachine.Proofs.Reaches
import TapeMachine.Sample

/-!
# The bundled program, compiled

The text of the bundled program compiles to eighteen rules. Up to the letter they come in few kinds:
one letter is taken off the left end, and then looked for at the right end. Each kind is stated
once, for both letters.

## Main results

- `ofSource_palindrome`: the text compiles to `program`
- `Table.Reaches.of_action?` / `Table.Reaches.of_action?_same`: a rule is a run of one transition
-/

namespace TapeMachine

/-- What the transition for a state and a mark does: what it writes, where the head moves, and which
    state comes next. -/
def Table.action? (table : Table) (q : State) (s : Mark) :
    Option (Symbol × Option Direction × State) :=
  (table.lookup q s).transition?.map fun t => (t.write, t.direction?, t.target)

section

variable {table : Table} {tape : Tape} {i j : Nat} {q target : State} {s : Mark} {write : Symbol}
  {direction : Direction}

theorem Table.outcome_of_action? (hread : tape.read i = s)
    (haction : table.action? q s = some (write, some direction, target))
    (hmove : direction.from? i = some j) :
    table.outcome ⟨tape, i, q⟩ = .fires ⟨tape.write i write, j, target⟩ := by
  obtain ⟨t, ht, hparts⟩ := Option.map_eq_some_iff.1 haction
  simp only [Prod.mk.injEq] at hparts
  obtain ⟨rfl, hdirection, rfl⟩ := hparts
  have hlookup : table.lookup q (tape.read i) = .matched t := by
    rw [hread]
    cases hl : table.lookup q s with
    | matched u => rw [hl] at ht; rw [Option.some.inj ht]
    | implicitAccept => rw [hl] at ht; contradiction
    | implicitReject => rw [hl] at ht; contradiction
  rw [outcome_of_matched hlookup hdirection, hmove]

/-- A rule that writes what it reads leaves a clean tape alone. -/
theorem Table.outcome_of_action?_same (hclean : tape.IsClean) (hread : tape.read i = write)
    (haction : table.action? q write = some (write, some direction, target))
    (hmove : direction.from? i = some j) :
    table.outcome ⟨tape, i, q⟩ = .fires ⟨tape, j, target⟩ := by
  have houtcome := outcome_of_action? hread haction hmove
  rwa [Tape.write_read hclean hread] at houtcome

/-- A rule is a run of one transition, unless it accepts. -/
theorem Table.Reaches.of_action? (hread : tape.read i = s)
    (haction : table.action? q s = some (write, some direction, target))
    (hmove : direction.from? i = some j) (hruns : target ≠ acceptState) :
    table.Reaches 1 ⟨tape, i, q⟩ ⟨tape.write i write, j, target⟩ :=
  .single (outcome_of_action? hread haction hmove) hruns

theorem Table.Reaches.of_action?_same (hclean : tape.IsClean) (hread : tape.read i = write)
    (haction : table.action? q write = some (write, some direction, target))
    (hmove : direction.from? i = some j) (hruns : target ≠ acceptState) :
    table.Reaches 1 ⟨tape, i, q⟩ ⟨tape, j, target⟩ :=
  .single (outcome_of_action?_same hclean hread haction hmove) hruns

end

namespace Sample

/-- The rules of the bundled program, with their lines. -/
def rules : List Rule :=
  [⟨"q0", "a", "_", "R", "q1", 5⟩,
    ⟨"q0", "b", "_", "R", "q2", 6⟩,
    ⟨"q0", "_", "_", "S", "ha", 7⟩,
    ⟨"q1", "a", "a", "R", "q1", 10⟩,
    ⟨"q1", "b", "b", "R", "q1", 11⟩,
    ⟨"q1", "_", "_", "L", "q3", 12⟩,
    ⟨"q2", "a", "a", "R", "q2", 15⟩,
    ⟨"q2", "b", "b", "R", "q2", 16⟩,
    ⟨"q2", "_", "_", "L", "q4", 17⟩,
    ⟨"q3", "a", "_", "L", "q5", 20⟩,
    ⟨"q3", "b", "b", "S", "hr", 21⟩,
    ⟨"q3", "_", "_", "S", "ha", 22⟩,
    ⟨"q4", "b", "_", "L", "q5", 25⟩,
    ⟨"q4", "a", "a", "S", "hr", 26⟩,
    ⟨"q4", "_", "_", "S", "ha", 27⟩,
    ⟨"q5", "a", "a", "L", "q5", 30⟩,
    ⟨"q5", "b", "b", "L", "q5", 31⟩,
    ⟨"q5", "_", "_", "R", "q0", 32⟩]

/-- The bundled program. -/
def program : Program := ⟨Program.tableOf rules, Graph.ofTable (Program.tableOf rules)⟩

/-! ## Compilation -/

theorem lines_palindrome : Text.lines palindrome = palindromeLines := by
  have hbreaks : palindromeLines.all (fun l => l.toList.all (!Text.isLineBreak ·)) = true := by
    decide +kernel
  -- the text was joined from these lines, and no break stands inside one
  refine Text.lines_join fun l hl c hc => ?_
  have h := List.all_eq_true.1 (List.all_eq_true.1 hbreaks l hl) c hc
  rwa [Bool.not_eq_true'] at h

theorem readRules_palindrome : readRules palindrome = .ok rules := by
  rw [readRules, ruleLines, lines_palindrome]
  decide +kernel

/-- The text compiles, and this is what it compiles to. -/
theorem ofSource_palindrome : Program.ofSource palindrome = .ok program := by
  have hrepeat : Program.firstRepeat? ∅ rules = none := by decide +kernel
  -- what is left to the compiler after reading is to look for a repeated key
  rw [Program.ofSource, readRules_palindrome]
  show Program.ofRules rules = .ok program
  rw [Program.ofRules, hrepeat]
  rfl

/-! ## Letters -/

/-- A letter of an input. -/
inductive Letter where
  | a
  | b
  deriving DecidableEq

namespace Letter

/-- The letter in a text. -/
def char : Letter → Char
  | a => 'a'
  | b => 'b'

/-- The letter on the tape. -/
def symbol (x : Letter) : Symbol := .singleton x.char

/-- The state that runs to the right end, having taken the letter. -/
def seek : Letter → State
  | a => "q1"
  | b => "q2"

/-- The state that checks the last letter, having taken the letter. -/
def check : Letter → State
  | a => "q3"
  | b => "q4"

theorem char_injective : Function.Injective char := by
  intro x y h
  cases x <;> cases y <;> first | rfl | contradiction

theorem seek_ne_acceptState (x : Letter) : x.seek ≠ acceptState := by
  cases x <;> decide

theorem check_ne_acceptState (x : Letter) : x.check ≠ acceptState := by
  cases x <;> decide

end Letter

/-! ## The rules -/

/-- The table does what the rules say. -/
theorem action?_of_mem : ∀ r ∈ rules, program.table.action? r.source r.read =
    some (r.write, Direction.ofLetter? r.move, r.target) := by
  decide +kernel

variable (x y : Letter)

theorem action?_take : program.table.action? startState x.symbol =
    some (blank, some .right, x.seek) := by
  cases x with
  | a => exact action?_of_mem ⟨"q0", "a", "_", "R", "q1", 5⟩ (by simp [rules])
  | b => exact action?_of_mem ⟨"q0", "b", "_", "R", "q2", 6⟩ (by simp [rules])

theorem action?_empty : program.table.action? startState blank =
    some (blank, some .stay, acceptState) :=
  action?_of_mem ⟨"q0", "_", "_", "S", "ha", 7⟩ (by simp [rules])

theorem action?_seek : program.table.action? x.seek y.symbol =
    some (y.symbol, some .right, x.seek) := by
  cases x with
  | a =>
    cases y with
    | a => exact action?_of_mem ⟨"q1", "a", "a", "R", "q1", 10⟩ (by simp [rules])
    | b => exact action?_of_mem ⟨"q1", "b", "b", "R", "q1", 11⟩ (by simp [rules])
  | b =>
    cases y with
    | a => exact action?_of_mem ⟨"q2", "a", "a", "R", "q2", 15⟩ (by simp [rules])
    | b => exact action?_of_mem ⟨"q2", "b", "b", "R", "q2", 16⟩ (by simp [rules])

theorem action?_turn : program.table.action? x.seek blank =
    some (blank, some .left, x.check) := by
  cases x with
  | a => exact action?_of_mem ⟨"q1", "_", "_", "L", "q3", 12⟩ (by simp [rules])
  | b => exact action?_of_mem ⟨"q2", "_", "_", "L", "q4", 17⟩ (by simp [rules])

theorem action?_check : program.table.action? x.check x.symbol =
    some (blank, some .left, "q5") := by
  cases x with
  | a => exact action?_of_mem ⟨"q3", "a", "_", "L", "q5", 20⟩ (by simp [rules])
  | b => exact action?_of_mem ⟨"q4", "b", "_", "L", "q5", 25⟩ (by simp [rules])

theorem action?_mismatch {x y : Letter} (h : x ≠ y) : program.table.action? x.check y.symbol =
    some (y.symbol, some .stay, "hr") := by
  cases x with
  | a =>
    cases y with
    | a => contradiction
    | b => exact action?_of_mem ⟨"q3", "b", "b", "S", "hr", 21⟩ (by simp [rules])
  | b =>
    cases y with
    | a => exact action?_of_mem ⟨"q4", "a", "a", "S", "hr", 26⟩ (by simp [rules])
    | b => contradiction

theorem action?_middle : program.table.action? x.check blank =
    some (blank, some .stay, acceptState) := by
  cases x with
  | a => exact action?_of_mem ⟨"q3", "_", "_", "S", "ha", 22⟩ (by simp [rules])
  | b => exact action?_of_mem ⟨"q4", "_", "_", "S", "ha", 27⟩ (by simp [rules])

theorem action?_back : program.table.action? "q5" y.symbol =
    some (y.symbol, some .left, "q5") := by
  cases y with
  | a => exact action?_of_mem ⟨"q5", "a", "a", "L", "q5", 30⟩ (by simp [rules])
  | b => exact action?_of_mem ⟨"q5", "b", "b", "L", "q5", 31⟩ (by simp [rules])

theorem action?_return : program.table.action? "q5" blank =
    some (blank, some .right, startState) :=
  action?_of_mem ⟨"q5", "_", "_", "R", "q0", 32⟩ (by simp [rules])

theorem lookup_reject : program.table.lookup "hr" y.symbol = .implicitReject := by
  cases y <;> decide +kernel

end Sample

end TapeMachine
