import TapeMachine.Proofs.Atomicity
import TapeMachine.Proofs.ReachableState
import TapeMachine.Proofs.Undo

/-!
# A run is repeated steps

A run asks for one step after the other until the machine halts or the bound is reached. A machine
that has halted stays as it is, so the steps that a run leaves out would have changed nothing, and a
run can be cut in two anywhere. A step that fails ends a run as it ends a sequence of steps.

What a run comes back with is the number of steps it asked for. That is not the number of
transitions: the step that rejects makes none.

## Main results

- `runOn_performAll_replicate_step`: as many steps do what a run does, and fail as it does
- `calls_run`: a run asks for the steps that are made
- `run_andThen`: two runs one after the other are one
- `stepCount_run`: how the transitions are counted
- `runsStepwise_of_reachableFrom`: all this of every state that operations lead to
-/

namespace TapeMachine

namespace Machine

variable {m : Machine}

/-! ## Steps that fail -/

/-- A step fails if the machine has not halted and the transition that applies has no direction. -/
theorem fault?_eq_some_iff {move : String} :
    m.fault? = some move ↔
      m.status.isTerminal = false ∧ m.table.outcome m.configuration = .faults move := by
  unfold fault? activeTransition? Table.outcome
  cases hm : m.status.isTerminal with
  | true => simp
  | false =>
    have hlookup : m.table.lookup m.configuration.state
        (m.configuration.tape.read m.configuration.head) = m.table.lookup m.state m.mark := rfl
    rw [hlookup]
    cases m.table.lookup m.state m.mark with
    | implicitAccept => simp [Lookup.transition?]
    | implicitReject => simp [Lookup.transition?]
    | matched t =>
      cases hdirection : t.direction? with
      | none => simp [Lookup.transition?, hdirection]
      | some direction =>
        cases hnext : direction.from? m.configuration.head with
        | none => simp [Lookup.transition?, hdirection, hnext]
        | some next => simp [Lookup.transition?, hdirection, hnext]

/-- A machine that has halted makes no step that could fail. -/
theorem fault?_of_terminal (hm : m.status.isTerminal = true) : m.fault? = none := by
  simp [fault?, activeTransition?, hm]

/-- A step that fails goes no further than the history, and the next one fails as well. -/
theorem step_of_fault {move : String} (h : m.fault? = some move) : m.step = m.remember := by
  obtain ⟨hm, houtcome⟩ := fault?_eq_some_iff.1 h
  rw [step_eq, hm, houtcome]
  rfl

theorem fault?_step_of_fault {move : String} (h : m.fault? = some move) :
    m.step.fault? = some move := by
  rw [step_of_fault h]
  exact h

/-! ## One step of a run -/

theorem runFrom_of_terminal (hm : m.status.isTerminal = true) (calls bound : Nat) :
    runFrom calls bound m = ⟨m, calls, none⟩ := by
  cases bound with
  | zero => rfl
  | succ bound => rw [runFrom, if_pos hm]

theorem runFrom_of_fault (hm : m.status.isTerminal = false) {move : String}
    (hfault : m.fault? = some move) (calls bound : Nat) :
    runFrom calls (bound + 1) m = ⟨m.step, calls, some move⟩ := by
  simp [runFrom, hm, hfault]

theorem runFrom_succ (hm : m.status.isTerminal = false) (hfault : m.fault? = none)
    (calls bound : Nat) : runFrom calls (bound + 1) m = runFrom (calls + 1) bound m.step := by
  simp [runFrom, hm, hfault]

/-! ## What a run does -/

/-- A run that does not fail is as many steps as it is allowed. -/
theorem machine_runFrom {calls bound : Nat} (h : (runFrom calls bound m).fault = none) :
    (runFrom calls bound m).machine = step^[bound] m := by
  induction bound generalizing m calls with
  | zero => rfl
  | succ bound ih =>
    cases hm : m.status.isTerminal with
    | true => rw [runFrom_of_terminal hm, iterate_step_of_terminal hm]
    | false =>
      cases hfault : m.fault? with
      | some move => simp [runFrom_of_fault hm hfault] at h
      | none =>
        rw [runFrom_succ hm hfault] at h ⊢
        exact ih h

/-- Steps one after the other, up to one that fails, do what a run does. -/
theorem runOn_performAll_replicate_step (calls bound : Nat) (m : Machine) :
    (Procedure.performAll (List.replicate bound .step)).runOn m =
      (Procedure.ending ((runFrom calls bound m).fault.map (.move ⟨·⟩)),
        (runFrom calls bound m).machine) := by
  induction bound generalizing m calls with
  | zero => rfl
  | succ bound ih =>
    have hsplit : Procedure.performAll (List.replicate (bound + 1) .step) =
        Procedure.perform .step >>= fun _ =>
          Procedure.performAll (List.replicate bound .step) := rfl
    rw [hsplit, Procedure.runOn_bind, Procedure.runOn_perform]
    simp only [failure?, perform]
    cases hm : m.status.isTerminal with
    | true =>
      -- this step changes nothing, nor do those after it
      rw [fault?_of_terminal hm, step_of_terminal hm, runFrom_of_terminal hm]
      simpa [runFrom_of_terminal hm, Procedure.ending] using ih calls m
    | false =>
      cases hfault : m.fault? with
      | some move => simp [runFrom_of_fault hm hfault, Procedure.ending]
      | none =>
        rw [runFrom_succ hm hfault]
        exact ih (calls + 1) m.step

/-! ## What a run comes back with -/

theorem stepsMade_of_terminal (hm : m.status.isTerminal = true) (n : Nat) : m.stepsMade n = 0 := by
  simp [stepsMade, iterate_step_of_terminal hm, halted, hm]

/-- The first step is made, and then those of the machine after it. -/
theorem stepsMade_succ_of_not_terminal (hm : m.status.isTerminal = false) (n : Nat) :
    m.stepsMade (n + 1) = m.step.stepsMade n + 1 := by
  simp [stepsMade, List.range_succ_eq_map, List.countP_map, Function.comp_def,
    Function.iterate_succ_apply, halted, hm]

/-- A run asks for the steps that are made. -/
theorem calls_runFrom {calls bound : Nat} (h : (runFrom calls bound m).fault = none) :
    (runFrom calls bound m).calls = calls + m.stepsMade bound := by
  induction bound generalizing m calls with
  | zero => rfl
  | succ bound ih =>
    cases hm : m.status.isTerminal with
    | true => simp [runFrom_of_terminal hm, stepsMade_of_terminal hm]
    | false =>
      cases hfault : m.fault? with
      | some move => simp [runFrom_of_fault hm hfault] at h
      | none =>
        rw [runFrom_succ hm hfault] at h ⊢
        rw [ih h, stepsMade_succ_of_not_terminal hm]
        omega

theorem calls_run {bound : Int} (h : (m.run bound).fault = none) :
    (m.run bound).calls = m.stepsMade bound.toNat := by
  simpa [run] using calls_runFrom h

/-- The machine halts with the step of this number, and not before. -/
structure HaltsAt (m : Machine) (h : Nat) : Prop where
  halted : (step^[h] m).halted = true
  running : ∀ j < h, (step^[j] m).halted = false

namespace HaltsAt

variable {h : Nat}

/-- A machine that goes on halts one step later than the machine after its next step. -/
theorem step (hh : m.HaltsAt (h + 1)) : m.step.HaltsAt h :=
  ⟨hh.halted, fun j hj => hh.running (j + 1) (Nat.succ_lt_succ hj)⟩

/-- A machine that has not halted yet halts with a later step. -/
theorem lt_of_running {n : Nat} (hopen : (Machine.step^[n] m).halted = false) (hh : m.HaltsAt h) :
    n < h := by
  by_contra hle
  have hrunning : (Machine.step^[h] m).halted = false :=
    not_terminal_of_iterate hopen (Nat.le_of_not_lt hle)
  rw [hh.halted] at hrunning
  contradiction

/-- The steps that are made are those up to the one that halts. -/
theorem stepsMade_eq (hh : m.HaltsAt h) {n : Nat} (hn : h ≤ n) : m.stepsMade n = h := by
  induction h generalizing m n with
  | zero => exact stepsMade_of_terminal hh.halted n
  | succ h ih =>
    obtain ⟨n, rfl⟩ : ∃ k, n = k + 1 := ⟨n - 1, by omega⟩
    have hm : m.status.isTerminal = false := hh.running 0 (by omega)
    rw [stepsMade_succ_of_not_terminal hm, ih hh.step (by omega)]

/-- The machine does not halt if one of its steps fails, so none does. -/
theorem fault?_eq_none (hh : m.HaltsAt h) : m.fault? = none := by
  cases hfault : m.fault? with
  | none => rfl
  | some move =>
    induction h generalizing m with
    | zero =>
      have hm : m.status.isTerminal = true := hh.halted
      rw [fault?_of_terminal hm] at hfault
      contradiction
    | succ h ih => exact ih hh.step (fault?_step_of_fault hfault)

/-- The machine after some of the steps halts with those that are left. -/
theorem iterate (hh : m.HaltsAt h) {i : Nat} (hi : i ≤ h) :
    (Machine.step^[i] m).HaltsAt (h - i) := by
  constructor
  · rw [← Function.iterate_add_apply, Nat.sub_add_cancel hi]
    exact hh.halted
  · intro j hj
    rw [← Function.iterate_add_apply]
    exact hh.running (j + i) (by omega)

theorem fault_runFrom (hh : m.HaltsAt h) (calls bound : Nat) :
    (runFrom calls bound m).fault = none := by
  induction bound generalizing m h calls with
  | zero => rfl
  | succ bound ih =>
    cases hm : m.status.isTerminal with
    | true => rw [runFrom_of_terminal hm]
    | false =>
      rw [runFrom_succ hm hh.fault?_eq_none]
      cases h with
      | zero =>
        have hhalted : m.status.isTerminal = true := hh.halted
        rw [hm] at hhalted
        contradiction
      | succ h => exact ih hh.step (calls + 1)

end HaltsAt

/-- A machine that has halted after some steps has halted at one of them. -/
theorem exists_haltsAt {n : Nat} (h : (step^[n] m).halted = true) : ∃ j ≤ n, m.HaltsAt j := by
  -- the steps that are made lead to where all of them lead
  obtain ⟨hsame, hrunning⟩ := iterate_step_stepsMade m n
  have hle : m.stepsMade n ≤ n := by
    simpa [stepsMade] using List.countP_le_length (p := fun i => !(step^[i] m).halted)
      (l := List.range n)
  exact ⟨m.stepsMade n, hle, by rwa [← hsame], hrunning⟩

/-- A machine that only halts with later steps has not halted yet. -/
theorem running_of_forall_lt {n : Nat} (h : ∀ j, m.HaltsAt j → n < j) :
    (step^[n] m).halted = false := by
  cases hm : (step^[n] m).halted with
  | false => rfl
  | true =>
    obtain ⟨j, hj, hhalts⟩ := exists_haltsAt hm
    have hlater := h j hhalts
    omega

/-- All steps are made if the machine does not halt before the last of them. -/
theorem stepsMade_of_running {n : Nat} (h : ∀ j, m.HaltsAt j → n ≤ j) : m.stepsMade n = n := by
  cases n with
  | zero => rfl
  | succ n =>
    have hopen := running_of_forall_lt h
    rw [stepsMade_succ, hopen, stepsMade_of_not_terminal hopen, if_neg Bool.false_ne_true]

/-! ## How transitions are counted -/

/-- A step that is made and does not fail makes a transition, or it rejects. -/
theorem stepCount_step (h : m.IsSound) (hm : m.status.isTerminal = false)
    (hfault : m.fault? = none) :
    m.step.stepCount + (if m.step.status = .rejected then 1 else 0) = m.stepCount + 1 := by
  cases houtcome : m.table.outcome m.configuration with
  | accepts => exact absurd (Table.state_of_accepts houtcome) (h.state_ne_acceptState hm)
  | rejects why =>
    rw [step_of_rejects hm houtcome]
    rfl
  | faults move =>
    rw [fault?_eq_some_iff.2 ⟨hm, houtcome⟩] at hfault
    contradiction
  | fires next =>
    have hstep := step_of_fires hm houtcome
    -- a transition that is fired does not reject
    have hopen : m.step.status ≠ .rejected := by
      rw [hstep]
      by_cases hnext : next.state = acceptState
      · simp [moveTo, hnext]
      · simpa [moveTo, hnext, remember] using Status.ne_rejected_of_not_terminal hm
    rw [if_neg hopen, hstep]
    rfl

/-- A run makes as many transitions as it asks for steps, or one less if it rejects. -/
theorem stepCount_runFrom (h : m.IsSound) (hm : m.status.isTerminal = false)
    (calls bound : Nat) :
    (runFrom calls bound m).machine.stepCount +
        (if (runFrom calls bound m).machine.status = .rejected then 1 else 0) + calls =
      m.stepCount + (runFrom calls bound m).calls := by
  induction bound generalizing m calls with
  | zero => simp [runFrom, Status.ne_rejected_of_not_terminal hm]
  | succ bound ih =>
    -- a step fails, ends the run, or others follow
    cases hfault : m.fault? with
    | some move =>
      rw [runFrom_of_fault hm hfault, step_of_fault hfault]
      simp [remember, Status.ne_rejected_of_not_terminal hm]
    | none =>
      have hcount := stepCount_step h hm hfault
      rw [runFrom_succ hm hfault]
      cases hnext : m.step.status.isTerminal with
      | true =>
        rw [runFrom_of_terminal hnext]
        dsimp only
        omega
      | false =>
        have hrest := ih h.step hnext (calls + 1)
        rw [if_neg (Status.ne_rejected_of_not_terminal hnext)] at hcount
        omega

theorem stepCount_run (h : m.IsSound) (hm : m.status.isTerminal = false) (bound : Int) :
    (m.run bound).machine.stepCount +
        (if (m.run bound).machine.status = .rejected then 1 else 0) =
      m.stepCount + (m.run bound).calls :=
  stepCount_runFrom h hm 0 bound.toNat

/-! ## Runs one after the other -/

/-- Runs on, unless the run has failed; the steps that both ask for are added. -/
def Run.andThen (r : Run) (bound : Int) : Run :=
  match r.fault with
  | some _ => r
  | none =>
    ⟨(r.machine.run bound).machine, r.calls + (r.machine.run bound).calls,
      (r.machine.run bound).fault⟩

/-- A run may start to count anywhere. -/
theorem runFrom_add_calls (calls earlier bound : Nat) (m : Machine) :
    runFrom (earlier + calls) bound m =
      { runFrom calls bound m with calls := earlier + (runFrom calls bound m).calls } := by
  induction bound generalizing m calls with
  | zero => rfl
  | succ bound ih =>
    unfold runFrom
    split
    · rfl
    · split
      · rfl
      · exact ih (calls + 1) m.step

theorem runFrom_andThen (calls a b : Nat) (m : Machine) :
    (runFrom calls a m).andThen b = runFrom calls (a + b) m := by
  induction a generalizing m calls with
  | zero =>
    rw [Nat.zero_add]
    exact (runFrom_add_calls 0 calls b m).symm
  | succ a ih =>
    rw [Nat.succ_add]
    cases hm : m.status.isTerminal with
    | true => simp [runFrom_of_terminal hm, Run.andThen, run]
    | false =>
      cases hfault : m.fault? with
      | some move => simp [runFrom_of_fault hm hfault, Run.andThen]
      | none =>
        rw [runFrom_succ hm hfault, runFrom_succ hm hfault]
        exact ih (calls + 1) m.step

/-- Two runs one after the other are one run under both bounds together. -/
theorem run_andThen (m : Machine) (a b : Nat) : (m.run a).andThen b = m.run (a + b) :=
  runFrom_andThen 0 a b m

/-! ## Every run -/

/-- The runs of a machine are steps, one after the other. -/
structure RunsStepwise (m : Machine) : Prop where
  /-- Steps, as many as the bound allows and up to one that fails, do what a run does and fail as it
  does. -/
  steps : ∀ bound : Int,
    (Procedure.performAll (List.replicate bound.toNat .step)).runOn m =
      (Procedure.ending (m.failure? (.run bound)), (m.run bound).machine)
  machine_eq : ∀ bound : Int, (m.run bound).fault = none →
    (m.run bound).machine = step^[bound.toNat] m
  fault_eq_none : m.table.HasDirections → ∀ bound : Int, (m.run bound).fault = none
  calls_of_haltsAt : ∀ (bound : Int) (j : Nat), m.HaltsAt j → j < bound →
    (m.run bound).fault = none ∧ (m.run bound).calls = j
  calls_of_running : ∀ bound : Int, (∀ j : Nat, m.HaltsAt j → bound ≤ j) →
    (m.run bound).fault = none → ((m.run bound).calls : Int) = max bound 0
  andThen : ∀ a b : Nat, (m.run a).andThen b = m.run (a + b)
  stepCount : ∀ bound : Int, m.halted = false →
    (m.run bound).machine.stepCount +
        (if (m.run bound).machine.status = .rejected then 1 else 0) =
      m.stepCount + (m.run bound).calls

/-- In every state that operations lead to, a run is repeated steps, and comes back with how many of
them were made. -/
theorem runsStepwise_of_reachableFrom {table : Table} {capacity : Option Nat} {m : Machine}
    (h : ReachableFrom table capacity m) : m.RunsStepwise where
  steps bound := runOn_performAll_replicate_step 0 bound.toNat m
  machine_eq bound hfault := machine_runFrom hfault
  fault_eq_none hdirections bound := (run_eq_iterate hdirections bound).2
  calls_of_haltsAt bound j hhalts hj := by
    have hfault : (m.run bound).fault = none := hhalts.fault_runFrom 0 bound.toNat
    exact ⟨hfault, by rw [calls_run hfault, hhalts.stepsMade_eq (by omega)]⟩
  calls_of_running bound hrunning hfault := by
    rw [calls_run hfault, stepsMade_of_running fun j hj => by have := hrunning j hj; omega]
    omega
  andThen := run_andThen m
  stepCount bound hm :=
    stepCount_run (isKept_isSound.reachableFrom (isSound_ofTable table capacity) h) hm bound

/-- A machine that is told to play before it reads the first of two symbols, and rejects the
second. -/
def readingMachine : Machine :=
  (((ofTable .empty (some 1)).perform (.load "ab")).perform (.compile "q0 a/a,R q0")).perform .play

/-- Its run asks for two steps, and makes one transition. -/
theorem runsStepwise_of_reachableFrom_reading :
    ReachableFrom .empty (some 1) readingMachine ∧ readingMachine.RunsStepwise ∧
      readingMachine.halted = false ∧ (readingMachine.run 5).fault = none ∧
      (readingMachine.run 5).calls = 2 ∧
      (readingMachine.run 5).machine.stepCount + 1 = readingMachine.stepCount + 2 := by
  have hreachable : ReachableFrom .empty (some 1) readingMachine :=
    .perform _ (.perform _ (.perform _ .fresh))
  have hruns := runsStepwise_of_reachableFrom hreachable
  have hopen : readingMachine.halted = false := by decide +kernel
  have hcalls : (readingMachine.run 5).calls = 2 := by decide +kernel
  have hrejects : (readingMachine.run 5).machine.status = .rejected := by decide +kernel
  have hcount := hruns.stepCount 5 hopen
  rw [if_pos hrejects, hcalls] at hcount
  exact ⟨hreachable, hruns, hopen, by decide +kernel, hcalls, hcount⟩

end Machine

end TapeMachine
