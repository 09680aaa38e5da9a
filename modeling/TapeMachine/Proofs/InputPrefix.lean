import TapeMachine.Proofs.CompiledTable
import TapeMachine.Proofs.LetteredTape
import TapeMachine.Proofs.Simulation
import TapeMachine.Proofs.VerdictAgreement

/-!
# How much of an input an evaluation sees

The head starts on cell zero and goes at most one cell to the right in an iteration. So within a
bound only that many cells can be read, and inputs that agree on them get the same verdict. An input
that ends earlier is taken to go on with blanks.

What is kept from iteration to iteration is that the tapes agree up to where the head can still
come: `AgreeFor n` speaks of the `n` cells from the head on and of all cells to the left of them.

## Main results

- `Configuration.AgreeFor.together`: tapes that agree go on to agree, on one cell less from the head
- `Table.evaluate_eq_of_prefix`: the verdict within a bound is told by that many cells
-/

namespace TapeMachine

open Text (Loose)

/-- The configurations differ at most in cells that the head does not come to within `n`
iterations. -/
structure Configuration.AgreeFor (n : Nat) (c c' : Configuration) : Prop where
  state : c'.state = c.state
  head : c'.head = c.head
  cells : ∀ i < c.head + n, c'.tape.read i = c.tape.read i

variable {table : Table}

/-- Tapes that agree on the cells that the head can come to go on to do so. -/
theorem Configuration.AgreeFor.together {n : Nat} {c c' : Configuration}
    (h : AgreeFor (n + 1) c c') :
    (table.outcome c).Together (AgreeFor n) (table.outcome c') := by
  have hmark : c'.tape.read c'.head = c.tape.read c.head := by
    rw [h.head]
    apply h.cells
    omega
  apply Table.together_of_lookup (f := id) _ h.head (fun _ => rfl) fun _ => Iff.rfl
  · intro t direction position _ hposition _
    refine ⟨rfl, rfl, fun i hi => ?_⟩
    have hle := Direction.le_of_from? hposition
    -- the head may have come one cell nearer to the end of what agrees
    have hi' : i < c.head + (n + 1) := by
      dsimp only at hi
      omega
    rw [Tape.read_write, Tape.read_write, h.cells i hi']
    rfl
  · rw [h.state, hmark, Lookup.map_id]

namespace Table

/-- Inputs that agree on as many cells as there are iterations get the same verdict. -/
theorem evaluate_eq_of_prefix {source : String} {program : Program}
    (hsource : Program.ofSource source = .ok program) (bound : Nat) {input input' : Loose}
    (hcells : ∀ i < bound, Tape.inputCell input' i = Tape.inputCell input i) :
    ∃ status, program.table.evaluate input bound = .ok status ∧
      program.table.evaluate input' bound = .ok status := by
  have hdirections := (Program.isCompiled_of_ofSource hsource).hasDirections
  obtain ⟨status, hstatus⟩ := Machine.exists_verdict hdirections input bound
  refine ⟨status, hstatus, ?_⟩
  rw [← hstatus]
  symm
  apply evaluate_eq_of_together (R := Configuration.AgreeFor) fun _ _ _ h => h.together
  refine ⟨rfl, rfl, fun i hi => ?_⟩
  rw [Tape.read_ofInput, Tape.read_ofInput, hcells i (by simpa using hi)]

/-- A program that goes to the second blank behind the input. -/
def seekingSource : String := "q0 a/a,R q0\nq0 b/b,R q0\nq0 _/_,R q1\nq1 _/_,S ha"

/-- The program of that text. -/
def seekingProgram : Program :=
  let table := Program.tableOf [⟨"q0", "a", "a", "R", "q0", 0⟩, ⟨"q0", "b", "b", "R", "q0", 1⟩,
    ⟨"q0", "_", "_", "R", "q1", 2⟩, ⟨"q1", "_", "_", "S", "ha", 3⟩]
  ⟨table, Graph.ofTable table⟩

/-- Four iterations do not come to the fifth cell. -/
theorem evaluate_eq_of_prefix_seeking :
    Program.ofSource seekingSource = .ok seekingProgram ∧
      (∀ i < 4, Tape.inputCell "ab__b" i = Tape.inputCell "ab" i) ∧
      (∃ status, seekingProgram.table.evaluate "ab" 4 = .ok status ∧
        seekingProgram.table.evaluate "ab__b" 4 = .ok status) ∧
      seekingProgram.table.evaluate "ab" 4 = .ok .accepted := by
  have hsource : Program.ofSource seekingSource = .ok seekingProgram := by decide +kernel
  have hcells : ∀ i < 4, Tape.inputCell "ab__b" i = Tape.inputCell "ab" i := by decide
  exact ⟨hsource, hcells, evaluate_eq_of_prefix hsource 4 hcells, by decide +kernel⟩

end Table

end TapeMachine
