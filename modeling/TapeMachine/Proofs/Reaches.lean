import TapeMachine.Proofs.VerdictAgreement

/-!
# Runs of transitions

`Table.Reaches n c d` says that `n` transitions lead from `c` to `d` without entering the accepting
state. What a program does is shown in these terms; `Machine.iterate_step_of_reaches` carries it
over to machines.

## Main results

- `Table.Reaches.trans`: runs follow one another
- `Machine.iterate_step_of_reaches`: a machine that still runs makes a run of transitions
- `Machine.iterate_step_accepts` / `Machine.iterate_step_rejects`: how a machine halts behind a run
- `Machine.verdict_accepts` / `Machine.verdict_rejects`: which bounds are wide enough to accept
-/

namespace TapeMachine

namespace Table

/-- So many transitions lead from one configuration to another; none enters the accepting state. -/
inductive Reaches (table : Table) : Nat → Configuration → Configuration → Prop where
  | refl (c : Configuration) : Reaches table 0 c c
  | head {c d e : Configuration} {n : Nat} (fires : table.outcome c = .fires d)
      (runs : d.state ≠ acceptState) (rest : Reaches table n d e) : Reaches table (n + 1) c e

namespace Reaches

variable {table : Table} {c d e : Configuration} {m n : Nat}

theorem single (hfires : table.outcome c = .fires d) (hruns : d.state ≠ acceptState) :
    table.Reaches 1 c d := .head hfires hruns (.refl d)

theorem trans (h : table.Reaches m c d) (h' : table.Reaches n d e) :
    table.Reaches (m + n) c e := by
  induction h with
  | refl => rwa [Nat.zero_add]
  | head fires runs _ ih =>
    rw [Nat.add_right_comm]
    exact .head fires runs (ih h')

/-- A run with its number of transitions in another form. -/
theorem of_eq (h : table.Reaches m c d) (hn : m = n) : table.Reaches n c d := hn ▸ h

end Reaches

end Table

namespace Machine

variable {m : Machine} {n : Nat} {d next : Configuration}

/-- A machine that still runs makes the transitions of a run, one a step, and runs on. -/
theorem iterate_step_of_reaches (hm : m.status.isTerminal = false)
    (h : m.table.Reaches n m.configuration d) :
    (step^[n] m).configuration = d ∧ (step^[n] m).status = m.status ∧
      (step^[n] m).stepCount = m.stepCount + n := by
  -- induction on the number of transitions, with the machine that starts the run generalised
  induction n generalizing m with
  | zero =>
    cases h
    exact ⟨rfl, rfl, rfl⟩
  | succ n ih =>
    cases h with
    | @head _ c _ _ fires runs rest =>
      -- the machine after the first step, where the rest of the run starts
      have hstep := step_of_fires hm fires
      have hconfiguration : m.step.configuration = c := by rw [hstep]; rfl
      have hstatus : m.step.status = m.status := by
        rw [hstep]
        exact if_neg runs
      have hcount : m.step.stepCount = m.stepCount + 1 := by rw [hstep]; rfl
      obtain ⟨hc, hs, hn⟩ := ih (m := m.step) (by rwa [hstatus])
        (by rwa [table_step, hconfiguration])
      rw [Function.iterate_succ_apply]
      refine ⟨hc, hs.trans hstatus, ?_⟩
      rw [hn, hcount]
      omega

/-- A run and a transition into the accepting state: the machine has accepted with the last step,
    and no further step changes it. -/
theorem iterate_step_accepts (hm : m.status.isTerminal = false)
    (h : m.table.Reaches n m.configuration d) (hfires : m.table.outcome d = .fires next)
    (haccepts : next.state = acceptState) {calls : Nat} (hcalls : n < calls) :
    (step^[calls] m).configuration = next ∧ (step^[calls] m).status = .accepted ∧
      (step^[calls] m).stepCount = m.stepCount + (n + 1) := by
  obtain ⟨hconfiguration, hstatus, hcount⟩ := iterate_step_of_reaches hm h
  have hlast : (step^[n] m).step = (step^[n] m).remember.moveTo next :=
    step_of_fires (by rwa [hstatus]) (by rwa [table_iterate_step, hconfiguration])
  have haccepted : (step^[n] m).step.status = .accepted := by
    rw [hlast]
    exact if_pos haccepts
  -- the steps behind the last transition find a machine that has halted
  obtain ⟨k, rfl⟩ := Nat.exists_eq_add_of_lt hcalls
  rw [show n + k + 1 = k + (n + 1) by omega, Function.iterate_add_apply,
    Function.iterate_succ_apply', iterate_step_of_terminal (by rw [haccepted]; rfl)]
  refine ⟨by rw [hlast]; rfl, haccepted, ?_⟩
  rw [hlast]
  exact congrArg (· + 1) hcount

/-- A run and an outcome that rejects: the machine has rejected with the step behind the run, and no
    further step changes it. -/
theorem iterate_step_rejects {why : Rejection} (hm : m.status.isTerminal = false)
    (h : m.table.Reaches n m.configuration d) (hrejects : m.table.outcome d = .rejects why)
    {calls : Nat} (hcalls : n < calls) :
    (step^[calls] m).configuration = d ∧ (step^[calls] m).status = .rejected := by
  obtain ⟨hconfiguration, hstatus, -⟩ := iterate_step_of_reaches hm h
  have hlast : (step^[n] m).step = (step^[n] m).remember.reject why :=
    step_of_rejects (by rwa [hstatus]) (by rwa [table_iterate_step, hconfiguration])
  have hrejected : (step^[n] m).step.status = .rejected := by rw [hlast]; rfl
  -- the steps behind the last transition find a machine that has halted
  obtain ⟨k, rfl⟩ := Nat.exists_eq_add_of_lt hcalls
  rw [show n + k + 1 = k + (n + 1) by omega, Function.iterate_add_apply,
    Function.iterate_succ_apply', iterate_step_of_terminal (by rw [hrejected]; rfl)]
  refine ⟨?_, hrejected⟩
  rw [hlast]
  exact hconfiguration

/-- During a run the machine has not halted. -/
theorem not_terminal_of_reaches (hm : m.status.isTerminal = false)
    (h : m.table.Reaches n m.configuration d) {calls : Nat} (hcalls : calls ≤ n) :
    (step^[calls] m).status.isTerminal = false := by
  obtain ⟨-, hstatus, -⟩ := iterate_step_of_reaches hm h
  obtain ⟨k, rfl⟩ := Nat.exists_eq_add_of_le' hcalls
  rw [Function.iterate_add_apply] at hstatus
  cases ht : (step^[calls] m).status.isTerminal with
  | false => rfl
  | true =>
    -- a machine that has halted would have kept its status up to the end of the run
    rw [iterate_step_of_terminal ht] at hstatus
    rw [hstatus, hm] at ht
    contradiction

/-- A run that ends by accepting is accepted if there are steps for all of it. -/
theorem verdict_accepts (hm : m.status.isTerminal = false)
    (h : m.table.Reaches n m.configuration d) (hfires : m.table.outcome d = .fires next)
    (haccepts : next.state = acceptState) (calls : Nat) :
    (step^[calls] m).verdict = if n < calls then .accepted else .rejected := by
  by_cases hcalls : n < calls
  · obtain ⟨-, hstatus, -⟩ := iterate_step_accepts hm h hfires haccepts hcalls
    have hhalted : (step^[calls] m).halted = true := by rw [halted, hstatus]; rfl
    rw [if_pos hcalls, verdict, if_pos hhalted, hstatus]
  · rw [if_neg hcalls]
    exact verdict_of_not_terminal (not_terminal_of_reaches hm h (Nat.le_of_not_lt hcalls))

/-- A run that ends by rejecting is rejected under every bound. -/
theorem verdict_rejects {why : Rejection} (hm : m.status.isTerminal = false)
    (h : m.table.Reaches n m.configuration d) (hrejects : m.table.outcome d = .rejects why)
    (calls : Nat) : (step^[calls] m).verdict = .rejected := by
  by_cases hcalls : n < calls
  · obtain ⟨-, hstatus⟩ := iterate_step_rejects hm h hrejects hcalls
    have hhalted : (step^[calls] m).halted = true := by rw [halted, hstatus]; rfl
    rw [verdict, if_pos hhalted, hstatus]
  · exact verdict_of_not_terminal (not_terminal_of_reaches hm h (Nat.le_of_not_lt hcalls))

end Machine

end TapeMachine
