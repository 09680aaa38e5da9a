import TapeMachine.Proofs.Configuration

/-!
# The evaluator agrees with the machine

The evaluator keeps no history and makes no difference between a run that is stuck and one that is
cut off. Still it decides every input as a machine does that loads the input and runs.

## Main results

- `evaluateFrom_eq_verdict`: from one configuration, iterations and steps come to the same verdict
- `evaluate_eq_run_status`: so do `Table.evaluate` and `Machine.run` after `Machine.load`
-/

namespace TapeMachine.Machine

/-- The status of a machine that has halted; one that has not is rejected. -/
def verdict (m : Machine) : Status := if m.halted then m.status else .rejected

theorem verdict_of_not_terminal {m : Machine} (h : m.status.isTerminal = false) :
    m.verdict = .rejected := if_neg (by rw [halted, h]; decide)

theorem verdict_eq_accepted_iff {m : Machine} : m.verdict = .accepted ↔ m.status = .accepted := by
  unfold verdict halted
  cases m.status <;> decide

theorem verdict_eq_rejected_iff {m : Machine} : m.verdict = .rejected ↔ m.status ≠ .accepted := by
  unfold verdict halted
  cases m.status <;> decide

/-- The status in which a machine halts is the verdict of all further steps. -/
theorem verdict_iterate_of_terminal {m : Machine} {status : Status} (hm : m.status = status)
    (h : status.isTerminal = true) (n : Nat) : (step^[n] m).verdict = status := by
  subst hm
  rw [iterate_step_of_terminal h]
  exact if_pos h

/-- A machine that still runs has the verdict of the evaluator from its configuration, after as
    many steps as the evaluator may iterate. -/
theorem evaluateFrom_eq_verdict {m : Machine} (h : m.table.HasDirections)
    (hm : m.status.isTerminal = false) (n : Nat) :
    m.table.evaluateFrom n m.tape m.head m.state = .ok (step^[n] m).verdict := by
  -- induction on the bound: an outcome ends both loops, or takes both to the same configuration
  induction n generalizing m with
  | zero => rw [Function.iterate_zero_apply, verdict_of_not_terminal hm, Table.evaluateFrom]
  | succ n ih =>
    have hsucc := Table.evaluateFrom_succ m.table n m.configuration
    rw [Function.iterate_succ_apply]
    cases ho : m.table.outcome m.configuration with
    | accepts =>
      have hstep : m.step.status = .accepted := by rw [step_of_accepts hm ho]
      rw [verdict_iterate_of_terminal hstep rfl]
      rwa [ho] at hsucc
    | rejects why =>
      have hstep : m.step.status = .rejected := by rw [step_of_rejects hm ho]; rfl
      rw [verdict_iterate_of_terminal hstep rfl]
      rwa [ho] at hsucc
    -- a move that is no direction would fail here and there
    | faults move => exact absurd ho (Table.outcome_ne_faults h _ _)
    | fires next =>
      have hfires := step_of_fires hm ho
      rw [ho] at hsucc
      by_cases hnext : next.state = acceptState
      · have hstep : m.step.status = .accepted := by
          rw [hfires]
          exact if_pos hnext
        rw [verdict_iterate_of_terminal hstep rfl]
        exact hsucc.trans (if_pos hnext)
      · -- both loops go on from the next configuration
        have hstep : m.step.status = m.status := by
          rw [hfires]
          exact if_neg hnext
        have hrest := ih (m := m.step) (by rwa [table_step]) (by rwa [hstep])
        rw [table_step, hfires] at hrest
        rw [hfires, ← hrest]
        exact hsucc.trans (if_neg hnext)

/-- The evaluator gives the verdict of a machine that has loaded the input and run. -/
theorem evaluate_eq_verdict (m : Machine) (h : m.table.HasDirections) (input : Text.Loose)
    (bound : Int) :
    m.table.evaluate input bound = .ok ((m.load input).run bound).machine.verdict := by
  have hload : (m.load input).table.HasDirections := h
  rw [(run_eq_iterate hload bound).1]
  exact evaluateFrom_eq_verdict hload rfl bound.toNat

/-- With directions only, there always is a verdict. -/
theorem exists_verdict {table : Table} (h : table.HasDirections) (input : Text.Loose)
    (bound : Int) : ∃ status, table.evaluate input bound = .ok status :=
  ⟨_, evaluate_eq_verdict (.ofTable table none) h input bound⟩

/-- Whatever a machine did before and however little it remembers: if it loads an input and runs, the
    run does not fail, and the evaluator gives the status in which the machine has halted, or
    rejects if it has not. -/
theorem evaluate_eq_run_status (m : Machine) (h : m.table.HasDirections) (input : Text.Loose)
    (bound : Int) :
    ((m.load input).run bound).fault = none ∧
      m.table.evaluate input bound =
        .ok (if ((m.load input).run bound).machine.halted
          then ((m.load input).run bound).machine.status else .rejected) := by
  have hload : (m.load input).table.HasDirections := h
  exact ⟨(run_eq_iterate hload bound).2, evaluate_eq_verdict m h input bound⟩

/-- A table that leaves the tape on its left end. -/
def leavingTable : Table :=
  .ofList [⟨"q0", "a", "b", "R", "q1", 0, "a/b,R"⟩, ⟨"q1", "a", "a", "L", "q0", 1, "a/a,L"⟩,
    ⟨"q0", "b", "b", "L", "q0", 2, "b/b,L"⟩]

/-- A machine that remembers nothing and has rejected an input already. -/
def usedMachine : Machine := ((ofTable leavingTable (some 0)).load "b").step

/-- The agreement where the machine leaves the tape in its third step. -/
theorem evaluate_eq_run_status_of_leavingTable :
    usedMachine.table.HasDirections ∧
      ((usedMachine.load "aab").run 4).fault = none ∧
      usedMachine.table.evaluate "aab" 4 =
        .ok (if ((usedMachine.load "aab").run 4).machine.halted
          then ((usedMachine.load "aab").run 4).machine.status else .rejected) :=
  ⟨by decide, evaluate_eq_run_status usedMachine (by decide) "aab" 4⟩

end TapeMachine.Machine
