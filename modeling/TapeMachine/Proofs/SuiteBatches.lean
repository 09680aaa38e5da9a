import TapeMachine.Proofs.VerdictAgreement
import TapeMachine.Suite

/-!
# Cases and their verdicts

Inputs are numbered from one, and each gets the verdict of the evaluator. That they are run in
batches cannot be seen: the numbers go on from batch to batch.

## Main results

- `Table.evaluate_eq`: with directions only, every input is accepted or rejected
- `runBatchesFrom_eq`: batches give the cases of all inputs together
-/

namespace TapeMachine

namespace Table

/-- Does the evaluator accept an input? -/
def accepts (table : Table) (bound : Int) (input : String) : Bool :=
  match table.evaluate input bound with
  | .ok .accepted => true
  | _ => false

variable {table : Table}

/-- With directions only, the evaluator decides. -/
theorem evaluate_eq (h : table.HasDirections) (bound : Int) (input : String) :
    table.evaluate input bound = .ok (Status.ofVerdict (table.accepts bound input)) := by
  have hverdict : ∀ m : Machine, m.verdict = .accepted ∨ m.verdict = .rejected := by
    intro m
    unfold Machine.verdict Machine.halted
    split
    · rename_i hm
      exact (Status.isTerminal_iff m.status).1 hm
    · exact .inr rfl
  have hrun := Machine.evaluateFrom_eq_verdict (m := (Machine.ofTable table none).load input) h rfl
    bound.toNat
  have hevaluate : ∃ status, table.evaluate input bound = .ok status ∧
      (status = .accepted ∨ status = .rejected) := ⟨_, hrun, hverdict _⟩
  -- `accepts` looks at the same evaluation, whichever way it went
  obtain ⟨status, heq, rfl | rfl⟩ := hevaluate
  · rw [accepts, heq]
    rfl
  · rw [accepts, heq]
    rfl

theorem evaluateAll_eq (h : table.HasDirections) (bound : Int) (inputs : List String) :
    table.evaluateAll inputs bound = .ok (inputs.map (table.accepts bound)) := by
  have hone : ∀ input : String, (table.evaluate input bound).map (· == .accepted) =
      .ok (table.accepts bound input) := by
    intro input
    rw [evaluate_eq h]
    cases table.accepts bound input <;> rfl
  unfold evaluateAll
  simp only [hone]
  exact List.mapM_pure

end Table

namespace Suite

/-- The cases of inputs with their verdicts, numbered on from those that were done before. -/
def decided (table : Table) (bound : Int) (done : Nat) (inputs : List String) : List Case :=
  inputs.zipIdx.map fun (input, i) =>
    ⟨done + i + 1, input, Status.ofVerdict (table.accepts bound input)⟩

theorem decided_append (table : Table) (bound : Int) (done : Nat) (xs ys : List String) :
    decided table bound done (xs ++ ys) =
      decided table bound done xs ++ decided table bound (done + xs.length) ys := by
  rw [decided, List.zipIdx_append, List.map_append, Nat.zero_add]
  congr 1
  rw [decided, List.zipIdx_eq_map_add (l := ys), List.map_map]
  refine List.map_congr_left fun p _ => ?_
  simp only [Function.comp_apply, Case.mk.injEq, and_true]
  push_cast
  omega

/-- Batches give the cases of all inputs together. -/
theorem runBatchesFrom_eq {table : Table} (h : table.HasDirections) (bound : Int) (done : Nat)
    (batches : List (List String)) :
    runBatchesFrom table bound done batches =
      .ok (decided table bound done batches.flatten) := by
  induction batches generalizing done with
  | nil => rfl
  | cons batch rest ih =>
    -- a batch numbers its cases on from what was done before it
    have hbatch : ((batch.zip (batch.map (table.accepts bound))).zipIdx.map
        fun p => (⟨done + p.2 + 1, p.1.1, Status.ofVerdict p.1.2⟩ : Case)) =
          decided table bound done batch := by
      rw [← List.map_prod_left_eq_zip, List.zipIdx_map, List.map_map, decided]
      rfl
    rw [runBatchesFrom, Table.evaluateAll_eq h, ih, List.flatten_cons, decided_append, ← hbatch]
    rfl

/-- The pieces of a list make it up. -/
theorem flatten_pieces {α : Type} {size : Nat} (h : 0 < size) (xs : List α) :
    (pieces size xs).flatten = xs := by
  -- each piece takes an entry off at least, so the length is fuel enough
  have hwithin : ∀ (fuel : Nat) (xs : List α), xs.length ≤ fuel →
      (piecesWithin size fuel xs).flatten = xs := by
    intro fuel
    induction fuel with
    | zero =>
      intro xs hxs
      rw [List.eq_nil_of_length_eq_zero (Nat.le_zero.1 hxs)]
      rfl
    | succ fuel ih =>
      intro xs hxs
      rw [piecesWithin]
      split
      · rename_i hempty
        rw [List.isEmpty_iff.1 hempty]
        rfl
      · rename_i hne
        have hpos : 0 < xs.length := List.length_pos_iff.2 fun hnil => hne (by rw [hnil]; rfl)
        rw [List.flatten_cons, ih _ (by rw [List.length_drop]; omega), List.take_append_drop]
  exact hwithin xs.length xs (Nat.le_refl _)

end Suite

end TapeMachine
