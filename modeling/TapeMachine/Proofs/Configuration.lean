import Mathlib.Logic.Function.Iterate
import TapeMachine.Machine.Operation
import TapeMachine.Verdict

/-!
# Configurations

A machine and the evaluator walk through the same configurations: a tape, a head and a state.
`Table.outcome` says once what a table makes of a configuration. `Machine.step_eq` and
`Table.evaluateFrom_succ` say that a step and an iteration follow it, so that nothing below has to
look into either of them again.
-/

namespace TapeMachine

/-- What a transition reads and changes. -/
@[ext] structure Configuration where
  tape : Tape
  head : Nat
  state : State
  deriving DecidableEq

/-- What a table makes of a configuration. -/
inductive Outcome where
  /-- A transition leads to the next configuration. -/
  | fires (next : Configuration)
  /-- No transition applies, in the accepting state. -/
  | accepts
  /-- No transition applies, or the one that does leaves the tape. -/
  | rejects (why : Rejection)
  /-- The move of the transition is no direction. -/
  | faults (move : String)
  deriving DecidableEq

/-- The configuration that a snapshot holds. -/
def Snapshot.configuration (s : Snapshot) : Configuration := ⟨s.tape, s.head, s.state⟩

namespace Table

/-- What the table makes of a configuration. -/
def outcome (table : Table) (c : Configuration) : Outcome :=
  match table.lookup c.state (c.tape.read c.head) with
  | .implicitAccept => .accepts
  | .implicitReject => .rejects (.noTransition c.state (c.tape.read c.head))
  | .matched t =>
    match t.direction? with
    | none => .faults t.move
    | some direction =>
      match direction.from? c.head with
      | none => .rejects .leftEnd
      | some next => .fires ⟨c.tape.write c.head t.write, next, t.target⟩

/-- The configuration after one transition, if one applies and the head stays on the tape. -/
def fire? (table : Table) (c : Configuration) : Option Configuration :=
  match table.outcome c with
  | .fires next => some next
  | _ => none

variable {table : Table} {c next : Configuration}

theorem fire?_eq_some : table.fire? c = some next ↔ table.outcome c = .fires next := by
  unfold fire?
  split <;> simp_all

/-- A transition that applies fires unless it leaves the tape. -/
theorem outcome_of_matched {t : Transition} {direction : Direction}
    (hlookup : table.lookup c.state (c.tape.read c.head) = .matched t)
    (hdirection : t.direction? = some direction) :
    table.outcome c = match direction.from? c.head with
      | none => .rejects .leftEnd
      | some next => .fires ⟨c.tape.write c.head t.write, next, t.target⟩ := by
  rw [outcome, hlookup]
  dsimp only
  rw [hdirection]

/-- What fires is a transition of the table that keeps the head on the tape. -/
theorem exists_of_fires (h : table.outcome c = .fires next) :
    ∃ t direction position, table.lookup c.state (c.tape.read c.head) = .matched t ∧
      t.direction? = some direction ∧ direction.from? c.head = some position ∧
      next = ⟨c.tape.write c.head t.write, position, t.target⟩ := by
  unfold outcome at h
  split at h
  · contradiction
  · contradiction
  · rename_i t hlookup
    split at h
    · contradiction
    · rename_i direction hdirection
      split at h
      · contradiction
      · rename_i position hposition
        exact ⟨t, direction, position, hlookup, hdirection, hposition,
          (Outcome.fires.inj h).symm⟩

/-- Without a transition, all states but the accepting one reject. -/
theorem outcome_of_unmatched
    (hlookup : ∀ t, table.lookup c.state (c.tape.read c.head) ≠ .matched t)
    (hstate : c.state ≠ acceptState) :
    table.outcome c = .rejects (.noTransition c.state (c.tape.read c.head)) := by
  rw [outcome]
  cases hl : table.lookup c.state (c.tape.read c.head) with
  | implicitAccept => exact absurd (lookup_implicitAccept hl) hstate
  | implicitReject => rfl
  | matched t => exact absurd hl (hlookup t)

/-- A table of directions meets no other move. -/
theorem outcome_ne_faults (h : table.HasDirections) (c : Configuration) (move : String) :
    table.outcome c ≠ .faults move := by
  intro hc
  unfold outcome at hc
  split at hc
  · contradiction
  · contradiction
  · rename_i t found
    -- a transition that applies is in the table, so its move is a direction
    have ht := h t (lookup_matched found).1
    split at hc
    · rename_i hnone
      rw [hnone] at ht
      contradiction
    · split at hc <;> contradiction

/-- Only the accepting state accepts without a transition. -/
theorem state_of_accepts (h : table.outcome c = .accepts) : c.state = acceptState := by
  unfold outcome at h
  split at h
  · rename_i found
    exact lookup_implicitAccept found
  · contradiction
  · split at h
    · contradiction
    · split at h <;> contradiction

/-! ## Evaluation -/

/-- One iteration of the evaluator follows the outcome. -/
theorem evaluateFrom_succ (table : Table) (n : Nat) (c : Configuration) :
    table.evaluateFrom (n + 1) c.tape c.head c.state =
      match table.outcome c with
      | .accepts => .ok .accepted
      | .rejects _ => .ok .rejected
      | .faults move => .error ⟨move⟩
      | .fires next =>
        if next.state = acceptState then .ok .accepted
        else table.evaluateFrom n next.tape next.head next.state := by
  rw [evaluateFrom, outcome]
  -- both look up a rule, then its direction, and then where it leads
  cases table.lookup c.state (c.tape.read c.head) with
  | implicitAccept => rfl
  | implicitReject => rfl
  | matched t =>
    cases ht : t.direction? with
    | none => simp only [ht]
    | some direction =>
      cases hd : direction.from? c.head with
      | none => simp only [ht, hd]
      | some next => simp only [ht, hd]

end Table

namespace Machine

/-- The configuration of a machine. -/
def configuration (m : Machine) : Configuration := ⟨m.tape, m.head, m.state⟩

/-- The machine after a transition to a configuration. -/
def moveTo (m : Machine) (next : Configuration) : Machine :=
  { m with
    tape := next.tape
    head := next.head
    headAsTruth := false
    state := next.state
    stepCount := m.stepCount + 1
    status := if next.state = acceptState then .accepted else m.status }

/-! ## Steps -/

/-- One step of a machine follows the outcome; all but a fault is put into the history first. -/
theorem step_eq (m : Machine) :
    m.step = if m.status.isTerminal then m
      else match m.table.outcome m.configuration with
        | .accepts => { m.remember with status := .accepted }
        | .rejects why => m.remember.reject why
        | .faults _ => m.remember
        | .fires next => m.remember.moveTo next := by
  unfold step Table.outcome
  -- both sides look up the same state and mark, of the machine and of its configuration
  cases hl : m.table.lookup m.state m.mark with
  | implicitAccept =>
    have hc : m.table.lookup m.configuration.state
        (m.configuration.tape.read m.configuration.head) = .implicitAccept := hl
    rw [hc]
  | implicitReject =>
    have hc : m.table.lookup m.configuration.state
        (m.configuration.tape.read m.configuration.head) = .implicitReject := hl
    rw [hc]
    rfl
  | matched t =>
    have hc : m.table.lookup m.configuration.state
        (m.configuration.tape.read m.configuration.head) = .matched t := hl
    rw [hc]
    dsimp only
    cases t.direction? with
    | none => rfl
    | some direction =>
      have hh : m.configuration.head = m.head := rfl
      dsimp only
      rw [hh]
      cases direction.from? m.head <;> rfl

variable {m : Machine}

/-- A machine that has halted stays as it is. -/
theorem step_of_terminal (h : m.status.isTerminal = true) : m.step = m := by
  rw [step_eq, if_pos h]

theorem step_of_accepts (hm : m.status.isTerminal = false)
    (h : m.table.outcome m.configuration = .accepts) :
    m.step = { m.remember with status := .accepted } := by
  rw [step_eq, hm, h]
  rfl

theorem step_of_rejects {why : Rejection} (hm : m.status.isTerminal = false)
    (h : m.table.outcome m.configuration = .rejects why) : m.step = m.remember.reject why := by
  rw [step_eq, hm, h]
  rfl

theorem step_of_fires {next : Configuration} (hm : m.status.isTerminal = false)
    (h : m.table.outcome m.configuration = .fires next) : m.step = m.remember.moveTo next := by
  rw [step_eq, hm, h]
  rfl

/-- However often a machine that has halted is asked for a step, it stays as it is. -/
theorem iterate_step_of_terminal (h : m.status.isTerminal = true) (n : Nat) : step^[n] m = m :=
  Function.iterate_fixed (step_of_terminal h) n

/-- With directions only, no step fails. -/
theorem fault?_eq_none (h : m.table.HasDirections) : m.fault? = none := by
  unfold fault? activeTransition?
  -- only a transition that applies could fail, and that one has a direction
  split
  · rename_i t active
    split at active
    · contradiction
    · unfold Lookup.transition? at active
      split at active
      · rename_i u found
        obtain rfl : u = t := Option.some.inj active
        have hu := h u (Table.lookup_matched found).1
        obtain ⟨direction, hdirection⟩ := Option.isSome_iff_exists.1 hu
        simp [hdirection]
      · contradiction
  · rfl

/-! ## What is left alone -/

/-- What a machine is set up with: its program, its input and the bound on its history. -/
structure Setup where
  table : Table
  graph : Graph
  input : Text.Loose
  capacity : Option Nat

/-- The setup of a machine. -/
def setup (m : Machine) : Setup := ⟨m.table, m.graph, m.input, m.history.capacity⟩

theorem setup_remember (m : Machine) : m.remember.setup = m.setup :=
  congrArg (Setup.mk m.table m.graph m.input) (History.capacity_push _ _)

@[simp] theorem setup_step (m : Machine) : m.step.setup = m.setup := by
  rw [step_eq]
  split
  · rfl
  · split <;> exact setup_remember m

@[simp] theorem setup_stepBack (m : Machine) : m.stepBack.setup = m.setup := by
  unfold stepBack
  split
  · rfl
  · rename_i hpop
    exact congrArg (Setup.mk m.table m.graph m.input) (History.capacity_of_pop? hpop)

/-- A property that outlasts a change between statuses that are not final is kept by playing. -/
theorem play_induction {P : Machine → Prop} {m : Machine}
    (hstatus : ∀ status : Status, m.status.isTerminal = false → status.isTerminal = false →
      P { m with status := status }) (hm : P m) : P m.play := by
  unfold play
  split
  · exact hm
  · rename_i hopen
    exact hstatus .running (Bool.eq_false_iff.2 hopen) rfl

/-- It is kept by pausing, too. -/
theorem pause_induction {P : Machine → Prop} {m : Machine}
    (hstatus : ∀ status : Status, m.status.isTerminal = false → status.isTerminal = false →
      P { m with status := status }) (hm : P m) : P m.pause := by
  unfold pause
  split
  · rename_i hrunning
    exact hstatus .paused (by rw [hrunning]; rfl) rfl
  · exact hm

@[simp] theorem setup_play (m : Machine) : m.play.setup = m.setup :=
  play_induction (P := fun u => u.setup = m.setup) (fun _ _ _ => rfl) rfl

@[simp] theorem setup_pause (m : Machine) : m.pause.setup = m.setup :=
  pause_induction (P := fun u => u.setup = m.setup) (fun _ _ _ => rfl) rfl

@[simp] theorem table_step (m : Machine) : m.step.table = m.table :=
  congrArg Setup.table (setup_step m)

@[simp] theorem table_stepBack (m : Machine) : m.stepBack.table = m.table :=
  congrArg Setup.table (setup_stepBack m)

@[simp] theorem table_play (m : Machine) : m.play.table = m.table :=
  congrArg Setup.table (setup_play m)

@[simp] theorem table_pause (m : Machine) : m.pause.table = m.table :=
  congrArg Setup.table (setup_pause m)

@[simp] theorem capacity_step (m : Machine) : m.step.history.capacity = m.history.capacity :=
  congrArg Setup.capacity (setup_step m)

@[simp] theorem capacity_stepBack (m : Machine) :
    m.stepBack.history.capacity = m.history.capacity := congrArg Setup.capacity (setup_stepBack m)

@[simp] theorem capacity_play (m : Machine) : m.play.history.capacity = m.history.capacity :=
  congrArg Setup.capacity (setup_play m)

@[simp] theorem capacity_pause (m : Machine) : m.pause.history.capacity = m.history.capacity :=
  congrArg Setup.capacity (setup_pause m)

theorem table_iterate_step (m : Machine) (n : Nat) : (step^[n] m).table = m.table := by
  induction n generalizing m with
  | zero => rfl
  | succ n ih => rw [Function.iterate_succ_apply, ih, table_step]

/-! ## Runs -/

/-- A property that steps keep is kept by runs. -/
theorem runFrom_induction {P : Machine → Prop} (hstep : ∀ m : Machine, P m → P m.step)
    (calls bound : Nat) (hm : P m) : P (runFrom calls bound m).machine := by
  induction bound generalizing m calls with
  | zero => exact hm
  | succ bound ih =>
    unfold runFrom
    split
    · exact hm
    · split
      · exact hstep m hm
      · exact ih (calls + 1) (hstep m hm)

/-- Runs leave alone what steps leave alone. -/
@[simp] theorem setup_run (m : Machine) (bound : Int) : (m.run bound).machine.setup = m.setup :=
  runFrom_induction (P := fun u => u.setup = m.setup) (fun u hu => (setup_step u).trans hu) 0
    bound.toNat rfl

@[simp] theorem table_run (m : Machine) (bound : Int) : (m.run bound).machine.table = m.table :=
  congrArg Setup.table (setup_run m bound)

theorem input_run (m : Machine) (bound : Int) : (m.run bound).machine.input = m.input :=
  congrArg Setup.input (setup_run m bound)

/-- With directions only, a run is as many steps as it is allowed, and nothing stops it. -/
theorem runFrom_eq_iterate (h : m.table.HasDirections) (calls bound : Nat) :
    (runFrom calls bound m).machine = step^[bound] m ∧ (runFrom calls bound m).fault = none := by
  induction bound generalizing m calls with
  | zero => exact ⟨rfl, rfl⟩
  | succ bound ih =>
    unfold runFrom
    -- a machine that has halted absorbs the steps that a run does not make
    by_cases hm : m.status.isTerminal = true
    · rw [if_pos hm, iterate_step_of_terminal hm]
      exact ⟨rfl, rfl⟩
    · rw [if_neg hm, fault?_eq_none h, Function.iterate_succ_apply]
      exact ih (by rwa [table_step]) (calls + 1)

theorem run_eq_iterate (h : m.table.HasDirections) (bound : Int) :
    (m.run bound).machine = step^[bound.toNat] m ∧ (m.run bound).fault = none :=
  runFrom_eq_iterate h 0 bound.toNat

end Machine

end TapeMachine
