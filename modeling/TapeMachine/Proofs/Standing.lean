import TapeMachine.Proofs.Configuration

/-!
# Where a machine stands

A step looks at nothing else than the table and where the machine stands: its configuration, how far
it has come and how it goes. On standings it is `Standing.step`, so two machines with the same
standing stay together if their tables make the same of every configuration.

Apart from the two final ones a status only says what the user asked for. A standing is `atRest` if
it says that the machine pauses; a step does not notice.

## Main results

- `Machine.standing_step`, `Machine.standing_iterate_step`: steps of machines are steps of standings
- `Standing.step_atRest`: a step does the same for a machine that pauses
- `Machine.atRest_standing_play`, `Machine.atRest_standing_pause`: to play and to pause changes what
  is said about a machine
-/

namespace TapeMachine

/-- The part of a machine that a step works on. -/
@[ext] structure Standing where
  configuration : Configuration
  headAsTruth : Bool
  stepCount : Nat
  status : Status
  lastError : Option Rejection
  deriving DecidableEq

namespace Standing

/-- What comes of a standing by an outcome. -/
def after (s : Standing) : Outcome → Standing
  | .accepts => { s with status := .accepted }
  | .rejects why => { s with status := .rejected, lastError := some why }
  -- the step fails, and nothing is changed
  | .faults _ => s
  | .fires next =>
    { s with
      configuration := next
      headAsTruth := false
      stepCount := s.stepCount + 1
      status := if next.state = acceptState then .accepted else s.status }

/-- One step by a table. What has halted stays as it is. -/
def step (table : Table) (s : Standing) : Standing :=
  if s.status.isTerminal then s else s.after (table.outcome s.configuration)

/-- The same standing of a machine that pauses, unless it has halted. -/
def atRest (s : Standing) : Standing :=
  if s.status.isTerminal then s else { s with status := .paused }

variable {s : Standing}

theorem step_of_terminal (table : Table) (h : s.status.isTerminal = true) : s.step table = s :=
  if_pos h

theorem step_of_not_terminal (table : Table) (h : s.status.isTerminal = false) :
    s.step table = s.after (table.outcome s.configuration) := by
  rw [step, h]
  rfl

theorem atRest_of_terminal (h : s.status.isTerminal = true) : s.atRest = s := if_pos h

theorem atRest_of_not_terminal (h : s.status.isTerminal = false) :
    s.atRest = { s with status := .paused } := by
  rw [atRest, h]
  rfl

/-- Any two standings that differ in a status that is not final rest alike. -/
theorem atRest_withStatus (h : s.status.isTerminal = false) {status : Status}
    (hstatus : status.isTerminal = false) : atRest { s with status := status } = s.atRest := by
  rw [atRest_of_not_terminal h, atRest_of_not_terminal hstatus]

theorem after_paused (h : s.status.isTerminal = false) (outcome : Outcome) :
    after { s with status := .paused } outcome = (s.after outcome).atRest := by
  cases outcome with
  | accepts => rfl
  | rejects why => rfl
  | faults move => exact (atRest_of_not_terminal h).symm
  | fires next =>
    by_cases hnext : next.state = acceptState
    · simp only [after, if_pos hnext]
      rfl
    · simp only [after, if_neg hnext]
      symm
      apply atRest_of_not_terminal
      exact h

/-- A step does the same for a machine that pauses. -/
theorem step_atRest (table : Table) (s : Standing) :
    s.atRest.step table = (s.step table).atRest := by
  cases h : s.status.isTerminal with
  | true => rw [step_of_terminal table h, atRest_of_terminal h, step_of_terminal table h]
  | false =>
    rw [step_of_not_terminal table h, ← after_paused h, atRest_of_not_terminal h]
    rfl

/-- Tables that make the same of every configuration make the same steps. -/
theorem step_congr {table other : Table} (h : ∀ c, table.outcome c = other.outcome c) :
    step table = step other := by
  funext s
  rw [step, step, h]

end Standing

namespace Machine

/-- Where a machine stands. -/
def standing (m : Machine) : Standing where
  configuration := m.configuration
  headAsTruth := m.headAsTruth
  stepCount := m.stepCount
  status := m.status
  lastError := m.lastError

/-- A step of a machine is a step of its standing. -/
theorem standing_step (m : Machine) : m.step.standing = m.standing.step m.table := by
  cases hm : m.status.isTerminal with
  | true => rw [step_of_terminal hm, Standing.step_of_terminal m.table hm]
  | false =>
    rw [step_eq, hm, if_neg Bool.false_ne_true, Standing.step_of_not_terminal m.table hm]
    have hconfiguration : m.standing.configuration = m.configuration := rfl
    rw [hconfiguration]
    cases m.table.outcome m.configuration <;> rfl

theorem standing_iterate_step (m : Machine) (n : Nat) :
    (step^[n] m).standing = (Standing.step m.table)^[n] m.standing := by
  induction n with
  | zero => rfl
  | succ n ih =>
    rw [Function.iterate_succ_apply', Function.iterate_succ_apply', standing_step, ih,
      table_iterate_step]

/-- To play is to say something else about a machine that still runs. -/
theorem atRest_standing_play (m : Machine) : m.play.standing.atRest = m.standing.atRest :=
  play_induction (P := fun u => u.standing.atRest = m.standing.atRest)
    (fun _ hm hstatus => Standing.atRest_withStatus (s := m.standing) hm hstatus) rfl

/-- So it is to pause. -/
theorem atRest_standing_pause (m : Machine) : m.pause.standing.atRest = m.standing.atRest :=
  pause_induction (P := fun u => u.standing.atRest = m.standing.atRest)
    (fun _ hm hstatus => Standing.atRest_withStatus (s := m.standing) hm hstatus) rfl

end Machine

end TapeMachine
