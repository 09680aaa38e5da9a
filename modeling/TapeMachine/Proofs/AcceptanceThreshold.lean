import TapeMachine.Proofs.CompiledTable
import TapeMachine.Proofs.Reaches

/-!
# How wide a bound has to be

Under a wider bound the evaluator accepts what it accepted before. So for an input that is accepted
at all there is a least bound, and it is the number of transitions that a machine makes up to the
accepting state: an iteration makes one transition, and the one that enters the accepting state is
the last.

All this comes from how a run of transitions goes on, which is said once, as its `Fate`.

## Main results

- `Table.fate`: a run never ends, or it comes to a rejection, or it enters the accepting state
- `Machine.acceptsAt_of_reaches`: a machine whose run does the last accepts with its last transition
- `Table.evaluate_threshold`: an input is never accepted, or exactly from some bound on
-/

namespace TapeMachine

namespace Table

variable {table : Table} {c d : Configuration} {n : Nat}

theorem Reaches.state_ne_acceptState (h : table.Reaches n c d) (hc : c.state ≠ acceptState) :
    d.state ≠ acceptState := by
  induction h with
  | refl => exact hc
  | head _ hruns _ ih => exact ih hruns

/-- How the run from a configuration goes on. -/
inductive Fate (table : Table) (c : Configuration) : Prop
  /-- It never ends. -/
  | endless : (∀ n, ∃ d, table.Reaches n c d) → Fate table c
  /-- It comes to where no transition can be made. -/
  | rejects {n : Nat} {d : Configuration} {why : Rejection} :
      table.Reaches n c d → table.outcome d = .rejects why → Fate table c
  /-- It comes to where a transition enters the accepting state. -/
  | accepts {n : Nat} {d next : Configuration} :
      table.Reaches n c d → table.outcome d = .fires next → next.state = acceptState →
      Fate table c

theorem fate_of_not_reaches (h : table.HasDirections) (hc : c.state ≠ acceptState)
    (hn : ∀ d, ¬ table.Reaches n c d) : table.Fate c := by
  -- induction down to the longest run there is, whose end tells the fate
  induction n with
  | zero => exact absurd (.refl c) (hn c)
  | succ n ih =>
    by_cases hreached : ∃ d, table.Reaches n c d
    · obtain ⟨d, hd⟩ := hreached
      cases houtcome : table.outcome d with
      | accepts => exact absurd (state_of_accepts houtcome) (hd.state_ne_acceptState hc)
      | rejects why => exact .rejects hd houtcome
      | faults move => exact absurd houtcome (outcome_ne_faults h d move)
      | fires next =>
        by_cases hnext : next.state = acceptState
        · exact .accepts hd houtcome hnext
        · exact absurd (hd.trans (.single houtcome hnext)) (hn next)
    · apply ih
      intro d hd
      exact hreached ⟨d, hd⟩

/-- Every run has a fate. -/
theorem fate (h : table.HasDirections) (hc : c.state ≠ acceptState) : table.Fate c := by
  by_cases hendless : ∀ n, ∃ d, table.Reaches n c d
  · exact .endless hendless
  · obtain ⟨n, hn⟩ := not_forall.1 hendless
    apply fate_of_not_reaches h hc (n := n)
    intro d hd
    exact hn ⟨d, hd⟩

end Table

namespace Machine

/-- The machine accepts with its `k`-th step and not before, and has made `k` transitions then. -/
structure AcceptsAt (m : Machine) (k : Nat) : Prop where
  accepted_iff : ∀ n, (step^[n] m).status = .accepted ↔ k ≤ n
  stepCount_eq : ∀ n, k ≤ n → (step^[n] m).stepCount = k

variable {m : Machine} {n : Nat} {d next : Configuration}

theorem acceptsAt_of_reaches {table : Table} (htable : m.table = table)
    (hm : m.status.isTerminal = false) (hcount : m.stepCount = 0)
    (h : table.Reaches n m.configuration d) (hfires : table.outcome d = .fires next)
    (haccepts : next.state = acceptState) : m.AcceptsAt (n + 1) := by
  subst htable
  constructor
  · intro calls
    rw [← verdict_eq_accepted_iff, verdict_accepts hm h hfires haccepts]
    by_cases hcalls : n < calls
    · simp [hcalls, Nat.succ_le_of_lt hcalls]
    · have hle : ¬ n + 1 ≤ calls := by omega
      simp [hcalls, hle]
  · intro calls hcalls
    obtain ⟨-, -, hsteps⟩ := iterate_step_accepts hm h hfires haccepts hcalls
    rw [hsteps, hcount, Nat.zero_add]

/-- The evaluator has as many iterations as the machine makes steps. -/
theorem evaluate_eq_verdict_iterate (m : Machine) (h : m.table.HasDirections)
    (input : Text.Loose) (bound : Int) :
    m.table.evaluate input bound = .ok (step^[bound.toNat] (m.load input)).verdict := by
  have hload : (m.load input).table.HasDirections := h
  rw [evaluate_eq_verdict m h, (run_eq_iterate hload bound).1]

end Machine

namespace Table

open Machine (AcceptsAt)

/-- The evaluator rejects an input under every bound, or there is a positive bound from which on it
accepts, and it is the step count with which every machine with this table accepts the input. -/
theorem evaluate_threshold {source : String} {program : Program}
    (hsource : Program.ofSource source = .ok program) (input : Text.Loose) :
    (∀ bound : Int, program.table.evaluate input bound = .ok .rejected) ∨
    ∃ k : Nat, 1 ≤ k ∧
      (∀ bound : Int, program.table.evaluate input bound =
        .ok (if (k : Int) ≤ bound then .accepted else .rejected)) ∧
      ∀ m : Machine, m.table = program.table → (m.load input).AcceptsAt k := by
  have hdirections := (Program.isCompiled_of_ofSource hsource).hasDirections
  -- a machine with the table, loaded with the input
  let m := Machine.ofTable program.table none
  have hevaluate : ∀ bound : Int, program.table.evaluate input bound =
      .ok (Machine.step^[bound.toNat] (m.load input)).verdict :=
    Machine.evaluate_eq_verdict_iterate m hdirections input
  have hstart : (m.load input).configuration.state ≠ acceptState :=
    (by decide : startState ≠ acceptState)
  cases Table.fate hdirections hstart with
  | endless hendless =>
    left
    intro bound
    obtain ⟨d, hd⟩ := hendless bound.toNat
    have hopen := Machine.not_terminal_of_reaches (m := m.load input) rfl hd (Nat.le_refl _)
    rw [hevaluate, Machine.verdict_of_not_terminal hopen]
  | rejects hd hrejects =>
    left
    intro bound
    rw [hevaluate, Machine.verdict_rejects (m := m.load input) rfl hd hrejects]
  | @accepts n d next hd hfires haccepts =>
    right
    refine ⟨n + 1, by omega, ?_, ?_⟩
    · intro bound
      rw [hevaluate, Machine.verdict_accepts (m := m.load input) rfl hd hfires haccepts]
      have hbound : n < bound.toNat ↔ ((n + 1 : Nat) : Int) ≤ bound := by omega
      simp only [hbound]
    · intro m' hm'
      exact Machine.acceptsAt_of_reaches hm' rfl rfl hd hfires haccepts

/-- A program that crosses out one symbol and then accepts the end of the input. -/
def crossingSource : String := "q0 a/x,R q1\nq1 _/_,S ha"

/-- The program of that text. -/
def crossingProgram : Program :=
  let table := Program.tableOf [⟨"q0", "a", "x", "R", "q1", 0⟩, ⟨"q1", "_", "_", "S", "ha", 1⟩]
  ⟨table, Graph.ofTable table⟩

/-- It accepts in two transitions: under the bound two and not under the bound one. -/
theorem evaluate_threshold_crossing :
    Program.ofSource crossingSource = .ok crossingProgram ∧
      (∀ bound : Int, crossingProgram.table.evaluate "a" bound =
        .ok (if 2 ≤ bound then .accepted else .rejected)) ∧
      ∀ m : Machine, m.table = crossingProgram.table → (m.load "a").AcceptsAt 2 := by
  have hsource : Program.ofSource crossingSource = .ok crossingProgram := by decide +kernel
  refine ⟨hsource, ?_⟩
  have htwo : crossingProgram.table.evaluate "a" 2 = .ok .accepted := by decide +kernel
  have hone : crossingProgram.table.evaluate "a" 1 = .ok .rejected := by decide +kernel
  rcases evaluate_threshold hsource "a" with hnever | ⟨k, -, hevaluate, haccepts⟩
  · rw [hnever] at htwo
    cases htwo
  · -- two evaluations leave one threshold
    have hle : k ≤ 2 := by
      by_contra hle
      rw [hevaluate, if_neg (by omega)] at htwo
      cases htwo
    have hlt : 1 < k := by
      by_contra hlt
      rw [hevaluate, if_pos (by omega)] at hone
      cases hone
    obtain rfl : k = 2 := by omega
    exact ⟨hevaluate, haccepts⟩

end Table

end TapeMachine
