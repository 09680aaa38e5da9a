import TapeMachine.Proofs.Atomicity
import TapeMachine.Proofs.Standing

/-!
# Playing and pausing change what is said, and nothing else

Apart from the two final ones a status tells whether the machine was last told to play or to pause.
It is kept in the snapshots as well, and no step back restores it. So it could only matter to an
operation that looks for more in it than whether the machine has halted, and none does: what an
operation makes of a machine is what it makes of the machine at rest, where all that is said has
been left out.

## Main results

- `atRest_perform`: every operation does the same with a machine and with the machine at rest
- `answer_atRest`: and comes back with the same
- `computesAlike_performAll`: to play and to pause in between other operations does not change what
  becomes of the machine, nor what those come back with
-/

namespace TapeMachine

/-! ## What is said -/

namespace Status

/-- The status of a machine that pauses, unless it has halted. -/
def atRest (status : Status) : Status := if status.isTerminal then status else .paused

theorem atRest_of_terminal {status : Status} (h : status.isTerminal = true) :
    status.atRest = status := if_pos h

theorem atRest_of_not_terminal {status : Status} (h : status.isTerminal = false) :
    status.atRest = .paused := by
  simp [atRest, h]

@[simp] theorem isTerminal_atRest (status : Status) :
    status.atRest.isTerminal = status.isTerminal := by
  cases status <;> rfl

@[simp] theorem atRest_atRest (status : Status) : status.atRest.atRest = status.atRest := by
  cases status <;> rfl

end Status

namespace Snapshot

/-- The snapshot, with its status left out unless that is final. -/
def atRest (s : Snapshot) : Snapshot := { s with status := s.status.atRest }

@[simp] theorem atRest_atRest (s : Snapshot) : s.atRest.atRest = s.atRest := by
  simp [atRest]

end Snapshot

/-- Does the operation only say something about the machine? -/
def Operation.isPlayOrPause : Operation → Bool
  | .play | .pause => true
  | _ => false

namespace Machine

variable {m u : Machine}

/-- The machine, with all left out that is said about playing and pausing, also in its history. -/
def atRest (m : Machine) : Machine :=
  { m with status := m.status.atRest, history := m.history.map Snapshot.atRest }

@[simp] theorem atRest_atRest (m : Machine) : m.atRest.atRest = m.atRest := by
  simp [atRest, History.map_map_self]

@[simp] theorem isTerminal_status_atRest (m : Machine) :
    m.atRest.status.isTerminal = m.status.isTerminal := Status.isTerminal_atRest m.status

/-- What is said about a machine that has not halted is left out. -/
theorem atRest_withStatus (hm : m.status.isTerminal = false) {status : Status}
    (hstatus : status.isTerminal = false) : atRest { m with status := status } = m.atRest := by
  simp [atRest, Status.atRest_of_not_terminal hm, Status.atRest_of_not_terminal hstatus]

@[simp] theorem atRest_play (m : Machine) : m.play.atRest = m.atRest :=
  play_induction (P := fun u => u.atRest = m.atRest)
    (fun _ hm hstatus => atRest_withStatus hm hstatus) rfl

@[simp] theorem atRest_pause (m : Machine) : m.pause.atRest = m.atRest :=
  pause_induction (P := fun u => u.atRest = m.atRest)
    (fun _ hm hstatus => atRest_withStatus hm hstatus) rfl

/-- Where a machine at rest stands. -/
theorem standing_atRest (m : Machine) : m.atRest.standing = m.standing.atRest := by
  cases hm : m.status.isTerminal with
  | true =>
    rw [Standing.atRest_of_terminal (s := m.standing) hm]
    simp [standing, configuration, atRest, Status.atRest_of_terminal hm]
  | false =>
    rw [Standing.atRest_of_not_terminal (s := m.standing) hm]
    simp [standing, configuration, atRest, Status.atRest_of_not_terminal hm]

/-! ## Operations on a machine at rest -/

/-- Whether the next step fails does not depend on what is said. -/
theorem fault?_atRest (m : Machine) : m.atRest.fault? = m.fault? := by
  simp [fault?, activeTransition?, atRest, mark]

theorem remember_atRest (m : Machine) : m.atRest.remember = m.remember.atRest := by
  have hpush : m.atRest.history.push m.snapshot.atRest =
      (m.history.push m.snapshot).map Snapshot.atRest := History.push_map _ _ _
  simp only [remember, atRest] at hpush ⊢
  rw [← hpush]
  rfl

theorem step_atRest (m : Machine) : m.atRest.step = m.step.atRest := by
  cases hm : m.status.isTerminal with
  | true => rw [step_of_terminal (by simpa), step_of_terminal hm]
  | false =>
    have houtcome : m.atRest.table.outcome m.atRest.configuration =
        m.table.outcome m.configuration := rfl
    rw [step_eq, step_eq m, isTerminal_status_atRest, hm, houtcome, remember_atRest]
    cases m.table.outcome m.configuration with
    | accepts => rfl
    | rejects why => rfl
    | faults move => rfl
    | fires next =>
      -- a transition accepts, or leaves the status as it was
      by_cases hnext : next.state = acceptState
      · simp [moveTo, atRest, hnext, Status.atRest, Status.isTerminal]
      · simp [moveTo, atRest, hnext]

theorem stepBack_atRest (m : Machine) : m.atRest.stepBack = m.stepBack.atRest := by
  have hpop : m.atRest.history.pop? =
      m.history.pop?.map (Prod.map Snapshot.atRest (History.map Snapshot.atRest)) :=
    History.pop?_map _ _
  unfold stepBack
  rw [hpop]
  cases m.history.pop? <;> rfl

/-- A run of the machine at rest asks for as many steps, and ends at rest where the run ends. -/
theorem runFrom_atRest (calls bound : Nat) (m : Machine) :
    runFrom calls bound m.atRest =
      { runFrom calls bound m with machine := (runFrom calls bound m).machine.atRest } := by
  induction bound generalizing m calls with
  | zero => rfl
  | succ bound ih =>
    simp only [runFrom, isTerminal_status_atRest, fault?_atRest, step_atRest]
    split
    · rfl
    · split
      · rfl
      · exact ih (calls + 1) m.step

/-- Every operation does the same with a machine and with the machine at rest. -/
theorem atRest_perform (m : Machine) (operation : Operation) :
    (m.atRest.perform operation).atRest = (m.perform operation).atRest := by
  -- what is refused leaves the machine as it is, at rest or not
  cases operation with
  | load input => rfl
  | setHead position =>
    simp only [perform, setHead]
    split
    · exact atRest_atRest m
    · rfl
  | step => simp [perform, step_atRest]
  | stepBack => simp [perform, stepBack_atRest]
  | run bound => simp [perform, run, runFrom_atRest]
  | play => simp [perform]
  | pause => simp [perform]
  | compile source =>
    simp only [perform, compile]
    cases Program.ofSource source with
    | error e => exact atRest_atRest m
    | ok program => rfl
  | setCapacity capacity =>
    simp only [perform, setCapacity]
    cases capacity? capacity with
    | error e => exact atRest_atRest m
    | ok c => simp [orUnchanged, atRest, History.resize_map, History.map_map_self]

/-! ## What operations come back with -/

/-- The number of steps that a run asks for. -/
def calls? (m : Machine) : Operation → Option Nat
  | .run bound => some (m.run bound).calls
  | _ => none

/-- What an operation comes back with: the number of steps that a run asked for, and nothing if it
is no run; or the fault that it fails with. -/
def answer (m : Machine) (operation : Operation) : Except Fault (Option Nat) :=
  match m.failure? operation with
  | some e => .error e
  | none => .ok (m.calls? operation)

theorem failure?_atRest (m : Machine) (operation : Operation) :
    m.atRest.failure? operation = m.failure? operation := by
  cases operation with
  | load input => rfl
  | setHead position =>
    simp only [failure?, setHead]
    split <;> rfl
  | step => simp only [failure?, fault?_atRest]
  | stepBack => rfl
  | run bound => simp only [failure?, run, runFrom_atRest]
  | play => rfl
  | pause => rfl
  | compile source =>
    simp only [failure?, compile]
    cases Program.ofSource source <;> rfl
  | setCapacity capacity =>
    simp only [failure?, setCapacity]
    cases capacity? capacity <;> rfl

theorem calls?_atRest (m : Machine) (operation : Operation) :
    m.atRest.calls? operation = m.calls? operation := by
  cases operation with
  | run bound => simp only [calls?, run, runFrom_atRest]
  | _ => rfl

theorem answer_atRest (m : Machine) (operation : Operation) :
    m.atRest.answer operation = m.answer operation := by
  rw [answer, answer, failure?_atRest, calls?_atRest]

/-- What the operations of a sequence come back with, apart from playing and pausing, one after the
other. -/
def answers (m : Machine) : List Operation → List (Except Fault (Option Nat))
  | [] => []
  | operation :: rest =>
    if operation.isPlayOrPause then (m.perform operation).answers rest
    else m.answer operation :: (m.perform operation).answers rest

/-! ## Sequences of operations -/

/-- Machines that are the same at rest stay so under one operation. -/
theorem atRest_perform_congr (h : m.atRest = u.atRest) (operation : Operation) :
    (m.perform operation).atRest = (u.perform operation).atRest := by
  rw [← atRest_perform m, h, atRest_perform u]

theorem answer_congr (h : m.atRest = u.atRest) (operation : Operation) :
    m.answer operation = u.answer operation := by
  rw [← answer_atRest m, h, answer_atRest u]

/-- To play and to pause only says something. -/
theorem atRest_perform_of_isPlayOrPause {operation : Operation} (h : operation.isPlayOrPause = true)
    (m : Machine) : (m.perform operation).atRest = m.atRest := by
  cases operation with
  | play => exact atRest_play m
  | pause => exact atRest_pause m
  | _ => contradiction

/-- Two machines that are the same at rest stay so if only one of them is told to play and to pause,
and the other operations come back with the same. -/
theorem atRest_performAll (h : m.atRest = u.atRest) (operations : List Operation) :
    (m.performAll operations).atRest =
        (u.performAll (operations.filter fun o => !o.isPlayOrPause)).atRest ∧
      m.answers operations = u.answers (operations.filter fun o => !o.isPlayOrPause) := by
  induction operations generalizing m u with
  | nil => exact ⟨h, rfl⟩
  | cons operation rest ih =>
    cases hsays : operation.isPlayOrPause with
    | true =>
      -- only the first machine is told something
      have hkept : (m.perform operation).atRest = u.atRest :=
        (atRest_perform_of_isPlayOrPause hsays m).trans h
      simpa [performAll, answers, hsays] using ih hkept
    | false =>
      have hboth := atRest_perform_congr h operation
      simpa [performAll, answers, hsays, answer_congr h operation] using ih hboth

/-- Two machines that compute the same. While they have not halted they may have another status, and
so may their snapshots. -/
structure ComputesAlike (m u : Machine) : Prop where
  table : m.table = u.table
  graph : m.graph = u.graph
  input : m.input = u.input
  tape : m.tape = u.tape
  head : m.head = u.head
  headAsTruth : m.headAsTruth = u.headAsTruth
  state : m.state = u.state
  stepCount : m.stepCount = u.stepCount
  lastError : m.lastError = u.lastError
  capacity : m.history.capacity = u.history.capacity
  history : m.history.toList.map Snapshot.atRest = u.history.toList.map Snapshot.atRest
  status : m.status.isTerminal = true ∨ u.status.isTerminal = true → m.status = u.status

theorem computesAlike_of_atRest (h : m.atRest = u.atRest) : m.ComputesAlike u := by
  have hstatus : m.status.atRest = u.status.atRest := congrArg Machine.status h
  have hhistory : m.history.map Snapshot.atRest = u.history.map Snapshot.atRest :=
    congrArg Machine.history h
  have hlist := congrArg History.toList hhistory
  rw [History.toList_map, History.toList_map] at hlist
  refine ⟨congrArg (·.table) h, congrArg (·.graph) h, congrArg (·.input) h, congrArg (·.tape) h,
    congrArg (·.head) h, congrArg (·.headAsTruth) h, congrArg (·.state) h,
    congrArg (·.stepCount) h, congrArg (·.lastError) h, congrArg (·.capacity) hhistory, hlist, ?_⟩
  intro hterminal
  -- if one of them has halted so has the other, and final statuses are not left out
  have hsame : m.status.isTerminal = u.status.isTerminal := by
    rw [← Status.isTerminal_atRest, hstatus, Status.isTerminal_atRest]
  have hboth : m.status.isTerminal = true ∧ u.status.isTerminal = true := by
    rw [hsame] at hterminal ⊢
    simpa using hterminal
  rwa [Status.atRest_of_terminal hboth.1, Status.atRest_of_terminal hboth.2] at hstatus

/-- Whatever a machine is and whatever is done to it: if it is told to play and to pause in between,
it computes the same, and what the other operations come back with is the same. -/
theorem computesAlike_performAll (m : Machine) (operations : List Operation) :
    (m.performAll operations).ComputesAlike
        (m.performAll (operations.filter fun o => !o.isPlayOrPause)) ∧
      m.answers operations = m.answers (operations.filter fun o => !o.isPlayOrPause) := by
  obtain ⟨hrest, hanswers⟩ := atRest_performAll (m := m) rfl operations
  exact ⟨computesAlike_of_atRest hrest, hanswers⟩

end Machine

end TapeMachine
