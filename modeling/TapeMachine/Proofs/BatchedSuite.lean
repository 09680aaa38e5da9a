import TapeMachine.Proofs.SuiteCommand

/-!
# A suite in batches

Inputs are run at once, or in batches that a progress bar is told of. Nothing but the bar shows the
difference: the cases are numbered on from batch to batch, and each of them is decided by itself.

## Main results

- `length_of_mem_pieces`: no batch is empty, and none has more inputs than it may
- `run_cases_eq`: what a suite that is run at once comes to
- `Command.Suite.runInputs_eq_run`: batches of any size come to the same
-/

namespace TapeMachine

namespace Suite

/-! ## Batches -/

/-- No piece is empty, and none is longer than it may be. -/
theorem length_of_mem_pieces {α : Type} {size : Nat} (h : 0 < size) {xs piece : List α}
    (hpiece : piece ∈ pieces size xs) : 1 ≤ piece.length ∧ piece.length ≤ size := by
  have hwithin : ∀ (fuel : Nat) (xs : List α), ∀ piece ∈ piecesWithin size fuel xs,
      1 ≤ piece.length ∧ piece.length ≤ size := by
    intro fuel
    induction fuel with
    | zero => exact fun _ _ hmem => absurd hmem List.not_mem_nil
    | succ fuel ih =>
      intro xs piece hmem
      rw [piecesWithin] at hmem
      split at hmem
      · exact absurd hmem List.not_mem_nil
      · rename_i hne
        rcases List.mem_cons.1 hmem with rfl | hrest
        · -- a piece is cut only where something is left
          have hpos : 0 < xs.length := List.length_pos_iff.2 fun hnil => hne (by rw [hnil]; rfl)
          rw [List.length_take]
          omega
        · exact ih _ piece hrest
  exact hwithin xs.length xs piece hpiece

/-! ## All inputs at once -/

/-- Inputs that are run at once are numbered from one, and get the verdicts of the evaluator. -/
theorem run_cases_eq {table : Table} (h : table.HasDirections) (bound : Int)
    (inputs : List String) :
    run table (cases inputs) bound = .ok (decided table bound 0 inputs) := by
  have hinputs : (cases inputs).map (·.input) = inputs := by
    rw [cases, List.map_map]
    exact List.zipIdx_map_fst 0 inputs
  have hverdicts : (cases inputs).zipWith
      (fun c ok => ({ c with status := Status.ofVerdict ok } : Case))
      (inputs.map (table.accepts bound)) = decided table bound 0 inputs := by
    refine List.ext_getElem (by simp [cases, decided]) fun k _ _ => ?_
    simp [cases, decided]
  unfold run
  rw [hinputs, Table.evaluateAll_eq h]
  exact congrArg Except.ok hverdicts

/-- Every case that is counted has been decided. -/
structure Summary.IsDecided (s : Summary) (total : Nat) : Prop where
  total : s.total = total
  idle : s.idle = 0
  parted : s.accepted + s.rejected = s.total

variable {cases : List Case}

theorem count_eq_zero {status : Status} (h : ∀ c ∈ cases, c.status ≠ status) :
    count cases status = 0 := by
  rw [count, List.countP_eq_zero]
  exact fun c hc hstatus => h c hc (beq_iff_eq.1 hstatus)

theorem AreVerdicts.isDecided {table : Table} {bound : Int} {inputs : List String}
    (h : AreVerdicts table bound inputs cases) : (summarize cases).IsDecided inputs.length := by
  have hparted := h.parted.length_eq
  rw [List.length_append] at hparted
  refine ⟨?_, count_eq_zero fun c hc => ?_, ?_⟩
  · rw [← h.inputs, List.length_map]
    rfl
  · rcases h.decided c hc with hstatus | hstatus <;> rw [hstatus] <;> decide
  · simp only [summarize, count, List.countP_eq_length_filter]
    exact hparted

end Suite

namespace Command.Suite

open Session TapeMachine.Suite

/-- The progress bar is opened, and told of each batch: none is empty or greater than it may be, and
together they are all inputs. -/
def TellsProgress (visible : Bool) (total : Nat) (size : Int) (events : List Event) : Prop :=
  ∃ advances : List Nat,
    events = .progress visible :: .task "[cyan]Evaluating..." total :: advances.map .advanced ∧
    (∀ n ∈ advances, 1 ≤ n ∧ n ≤ size) ∧ advances.sum = total

theorem tellsProgress_pieces (visible : Bool) {size : Int} (hsize : 1 ≤ size)
    (inputs : List String) :
    TellsProgress visible inputs.length size (.progress visible
      :: .task "[cyan]Evaluating..." inputs.length
      :: ((pieces size.toNat inputs).map List.length).map .advanced) := by
  refine ⟨_, rfl, fun n hn => ?_, ?_⟩
  · obtain ⟨piece, hpiece, rfl⟩ := List.mem_map.1 hn
    have := length_of_mem_pieces (by omega) hpiece
    omega
  · rw [← List.length_flatten, flatten_pieces (by omega)]

/-- That a suite is run in batches cannot be seen: whatever their size, the cases are those of a run
without batches, numbered in the order of the inputs and with the verdicts of the evaluator. The
progress bar is told of all inputs, and the summary counts every one as accepted or rejected. -/
theorem runInputs_eq_run {table : Table} (h : table.HasDirections) (inputs : List String)
    (bound : Int) (visible : Bool) {size : Int} (hsize : 1 ≤ size) (w : World) :
    ∃ cases events,
      TapeMachine.Suite.run table (TapeMachine.Suite.cases inputs) bound = .ok cases ∧
      runIn (runInputs table inputs bound visible size) w =
        (.ok cases, { w with events := w.events ++ events.toArray }) ∧
      AreVerdicts table bound inputs cases ∧
      TellsProgress visible inputs.length size events ∧
      (summarize cases).IsDecided inputs.length := by
  have hverdicts := areVerdicts_decided h bound inputs
  exact ⟨_, _, run_cases_eq h bound inputs, runIn_runInputs_of_pos h inputs bound visible hsize w,
    hverdicts, tellsProgress_pieces visible hsize inputs, hverdicts.isDecided⟩

/-- A table that goes on over each `a` and accepts behind them. -/
def countingTable : Table :=
  .ofList [⟨"q0", "a", "a", "R", "q0", 0, "a/a,R"⟩, ⟨"q0", "_", "_", "S", "ha", 1, "_/_,S"⟩]

/-- Five inputs in batches of two. The last batch is short, and one input needs more iterations than
there may be. -/
theorem runInputs_eq_run_shortBatch :
    countingTable.HasDirections ∧ (1 : Int) ≤ 2 ∧
      ∃ cases events,
        TapeMachine.Suite.run countingTable
          (TapeMachine.Suite.cases ["a", "", "b", "aaa", "aa"]) 3 = .ok cases ∧
        runIn (runInputs countingTable ["a", "", "b", "aaa", "aa"] 3 true 2) (Job.sampleWorld "run_") =
          (.ok cases, { Job.sampleWorld "run_" with
            events := (Job.sampleWorld "run_").events ++ events.toArray }) ∧
        AreVerdicts countingTable 3 ["a", "", "b", "aaa", "aa"] cases ∧
        TellsProgress true 5 2 events ∧
        (summarize cases).IsDecided 5 := by
  have hdirections : countingTable.HasDirections := by decide
  exact ⟨hdirections, by decide, runInputs_eq_run hdirections _ 3 true (by decide) _⟩

end Command.Suite

end TapeMachine
