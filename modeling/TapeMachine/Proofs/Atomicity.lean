import TapeMachine.Fault
import TapeMachine.Proofs.CompiledTable
import TapeMachine.Proofs.Configuration

/-!
# What operations change when they fail

An operation changes the parts of a machine one after the other, and it may fail in between. Then
what it has changed until then stays changed: a step whose move is no direction has put a snapshot
into the history before it fails. Here each operation is spelt out as such a procedure, one part at
a time, and shown to do what the operation is said to do.

The requests that a machine refuses are checked before anything is changed, and a program that was
compiled has directions only, so nothing fails that a machine with such a program is driven with.

## Main results

- `Procedure.runOn_perform`: the procedures carry out the operations
- `Procedure.refused_unchanged_installed_fresh`: a refused request changes nothing, and a program
  that was installed leaves nothing of what was before it
-/

namespace TapeMachine

/-! ## Procedures -/

/-- A computation that changes a machine one part at a time, and may fail. What it has changed until
then stays changed. -/
abbrev Procedure := ExceptT Fault (StateM Machine)

namespace Procedure

/-- Carries out a procedure on a machine. -/
def runOn {α : Type} (procedure : Procedure α) (m : Machine) : Except Fault α × Machine :=
  StateT.run (ExceptT.run procedure) m

/-- Starts over. -/
def restart : Procedure Unit := do
  modify fun m => { m with state := startState }
  modify fun m => { m with stepCount := 0 }
  modify fun m => { m with status := .idle }
  modify fun m => { m with lastError := none }
  modify fun m => { m with history := m.history.clear }

/-- Puts an input on the tape and starts over. -/
def load (input : Text.Loose) : Procedure Unit := do
  modify fun m => { m with input := input }
  modify fun m => { m with tape := .ofInput input }
  modify fun m => { m with head := 0, headAsTruth := false }
  restart

/-- Puts the head on a cell and starts over. -/
def setHead (position : Int) : Procedure Unit := do
  if position < 0 then throw (.machine (.negativeHead position))
  modify fun m => { m with head := position.toNat, headAsTruth := false }
  restart

/-- Takes the program that a text holds and starts over with the input loaded last. -/
def compile (source : String) : Procedure Unit := do
  match Program.ofSource source with
  | .error e => throw (.ofCompile e)
  | .ok program =>
    modify fun m => { m with table := program.table }
    modify fun m => { m with graph := program.graph }
    load (← get).input

/-- Changes the bound on the history. -/
def setCapacity (capacity : Option Int) : Procedure Unit := do
  match capacity? capacity with
  | .error e => throw (.machine e)
  | .ok c => modify fun m => { m with history := m.history.resize c }

/-- Says that the machine runs, unless it has halted. -/
def play : Procedure Unit := do
  unless (← get).status.isTerminal do
    modify fun m => { m with status := .running }

/-- Says that the machine pauses, if it was running. -/
def pause : Procedure Unit := do
  if (← get).status = .running then
    modify fun m => { m with status := .paused }

/-- Makes a transition that takes the head to a position. -/
def fire (t : Transition) (head : Nat) : Procedure Unit := do
  modify fun m => { m with tape := m.tape.write m.head t.write }
  modify fun m => { m with head := head, headAsTruth := false }
  modify fun m => { m with state := t.target }
  modify fun m => { m with stepCount := m.stepCount + 1 }
  if t.target = acceptState then
    modify fun m => { m with status := .accepted }

/-- Rejects for a reason. -/
def reject (why : Rejection) : Procedure Unit := do
  modify fun m => { m with status := .rejected }
  modify fun m => { m with lastError := some why }

/-- Makes one step, unless the machine has halted. -/
def step : Procedure Unit := do
  let m ← get
  unless m.status.isTerminal do
    modify fun m => { m with history := m.history.push m.snapshot }
    match m.table.lookup m.state m.mark with
    | .implicitAccept => modify fun m => { m with status := .accepted }
    | .implicitReject => reject (.noTransition m.state m.mark)
    | .matched t =>
      match t.direction? with
      | none => throw (.move ⟨t.move⟩)
      | some direction =>
        match direction.from? m.head with
        | none => reject .leftEnd
        | some head => fire t head

/-- Takes the last step back, if there is a history. -/
def stepBack : Procedure Unit := do
  match (← get).history.pop? with
  | none => pure ()
  | some (s, history) =>
    modify fun m => { m with history := history }
    modify fun m => { m with tape := s.tape }
    modify fun m => { m with head := s.head, headAsTruth := s.headAsTruth }
    modify fun m => { m with state := s.state }
    modify fun m => { m with stepCount := s.stepCount }
    modify fun m => { m with status := .paused }
    modify fun m => { m with lastError := none }

/-- Steps until the machine halts, at most so many times. -/
def run : (bound : Nat) → Procedure Unit
  | 0 => pure ()
  | bound + 1 => do
    unless (← get).status.isTerminal do
      step
      run bound

/-- The procedure of an operation. -/
def perform : Operation → Procedure Unit
  | .load input => load input
  | .setHead position => setHead position
  | .step => step
  | .stepBack => stepBack
  | .run bound => run bound.toNat
  | .play => play
  | .pause => pause
  | .compile source => compile source
  | .setCapacity capacity => setCapacity capacity

/-- The procedure of a sequence of operations; it ends with the first one that fails. -/
def performAll (operations : List Operation) : Procedure Unit := operations.forM perform

end Procedure

/-! ## What fails -/

/-- What a refused request fails with. -/
def Machine.refusal? {ε : Type} (toFault : ε → Fault) : Except ε Machine → Option Fault
  | .ok _ => none
  | .error e => some (toFault e)

/-- What an operation on a machine fails with, if it does. -/
def Machine.failure? (m : Machine) : Operation → Option Fault
  | .load _ | .stepBack | .play | .pause => none
  | .step => m.fault?.map (.move ⟨·⟩)
  | .run bound => (m.run bound).fault.map (.move ⟨·⟩)
  | .setHead position => refusal? .machine (m.setHead position)
  | .compile source => refusal? .ofCompile (m.compile source)
  | .setCapacity capacity => refusal? .machine (m.setCapacity capacity)

namespace Procedure

open Machine (refusal?)

/-- How a procedure ends: with a fault, if there is one. -/
def ending : Option Fault → Except Fault Unit
  | none => .ok ()
  | some e => .error e

variable {α β : Type} {m : Machine}

/-- A procedure goes on with the machine that its first part leaves, unless that fails. -/
theorem runOn_bind (p : Procedure α) (f : α → Procedure β) (m : Machine) :
    (p >>= f).runOn m =
      match p.runOn m with
      | (.ok a, m') => (f a).runOn m'
      | (.error e, m') => (.error e, m') := by
  have h : (p >>= f).runOn m =
      match p.runOn m with
      | (r, m') => StateT.run (ExceptT.bindCont f r) m' := rfl
  rw [h]
  cases p.runOn m with
  | mk r m' => cases r <;> rfl

theorem runOn_setHead (position : Int) (m : Machine) :
    (setHead position).runOn m =
      (ending (refusal? .machine (m.setHead position)), m.orUnchanged (m.setHead position)) := by
  unfold setHead Machine.setHead
  split <;> rfl

theorem runOn_compile (source : String) (m : Machine) :
    (compile source).runOn m =
      (ending (refusal? .ofCompile (m.compile source)), m.orUnchanged (m.compile source)) := by
  unfold compile Machine.compile
  cases Program.ofSource source <;> rfl

theorem runOn_setCapacity (capacity : Option Int) (m : Machine) :
    (setCapacity capacity).runOn m =
      (ending (refusal? .machine (m.setCapacity capacity)),
        m.orUnchanged (m.setCapacity capacity)) := by
  unfold setCapacity Machine.setCapacity
  cases capacity? capacity <;> rfl

/-- A procedure that looks at the machine first. -/
theorem runOn_get_bind (f : Machine → Procedure α) (m : Machine) :
    (get >>= f).runOn m = (f m).runOn m := rfl

theorem runOn_play (m : Machine) : play.runOn m = (.ok (), m.play) := by
  unfold play Machine.play
  rw [runOn_get_bind]
  split <;> rfl

theorem runOn_pause (m : Machine) : pause.runOn m = (.ok (), m.pause) := by
  unfold pause Machine.pause
  rw [runOn_get_bind]
  split <;> rfl

theorem runOn_fire (t : Transition) (head : Nat) (m : Machine) :
    (fire t head).runOn m = (.ok (), m.fire t head) := by
  unfold fire Machine.fire
  split <;> rfl

theorem runOn_stepBack (m : Machine) : stepBack.runOn m = (.ok (), m.stepBack) := by
  unfold stepBack Machine.stepBack
  rw [runOn_get_bind]
  cases m.history.pop? <;> rfl

/-- A step fails just if its move is no direction, and then the snapshot stays in the history. -/
theorem runOn_step (m : Machine) : step.runOn m = (ending (m.failure? .step), m.step) := by
  unfold step Machine.step Machine.failure? Machine.fault? Machine.activeTransition?
  rw [runOn_get_bind]
  split
  · rfl
  · rw [runOn_bind]
    -- the snapshot is in the history by now, and stays there if the move is no direction
    show runOn (match m.table.lookup m.state m.mark with
      | .implicitAccept => _
      | .implicitReject => _
      | .matched t => _) m.remember = _
    cases m.table.lookup m.state m.mark with
    | implicitAccept => rfl
    | implicitReject => rfl
    | matched t =>
      dsimp only [Lookup.transition?]
      cases t.direction? with
      | none => rfl
      | some direction =>
        dsimp only
        cases direction.from? m.head with
        | none => rfl
        | some head => exact runOn_fire t head m.remember

/-- A run goes on until a step fails. -/
theorem runOn_run (calls bound : Nat) (m : Machine) :
    (run bound).runOn m =
      (ending ((m.runFrom calls bound).fault.map (.move ⟨·⟩)),
        (m.runFrom calls bound).machine) := by
  induction bound generalizing calls m with
  | zero => rfl
  | succ bound ih =>
    unfold run Machine.runFrom
    rw [runOn_get_bind]
    -- on the bound; a machine that has halted makes no step
    split
    · rfl
    · rw [runOn_bind, runOn_step]
      cases hfault : m.fault? with
      | none =>
        simp only [Machine.failure?, hfault]
        exact ih (calls + 1) m.step
      | some move =>
        simp only [Machine.failure?, hfault]
        rfl

/-- The procedures carry out the operations, and fail when these do. -/
theorem runOn_perform (operation : Operation) (m : Machine) :
    (perform operation).runOn m = (ending (m.failure? operation), m.perform operation) := by
  cases operation with
  | load input => rfl
  | setHead position => exact runOn_setHead position m
  | step => exact runOn_step m
  | stepBack => exact runOn_stepBack m
  | run bound => exact runOn_run 0 bound.toNat m
  | play => exact runOn_play m
  | pause => exact runOn_pause m
  | compile source => exact runOn_compile source m
  | setCapacity capacity => exact runOn_setCapacity capacity m

/-! ## Sequences -/

/-- What keeps operations from failing, and is kept by them, keeps sequences from failing. -/
theorem runOn_performAll {P : Machine → Prop} {A : Operation → Prop}
    (hstep : ∀ {m : Machine} {operation}, P m → A operation →
      m.failure? operation = none ∧ P (m.perform operation))
    {operations : List Operation} (hm : P m) (hall : ∀ o ∈ operations, A o) :
    (performAll operations).runOn m = (.ok (), m.performAll operations) := by
  induction operations generalizing m with
  | nil => rfl
  | cons operation rest ih =>
    obtain ⟨ho, hrest⟩ := List.forall_mem_cons.1 hall
    obtain ⟨hnone, hkept⟩ := hstep hm ho
    have hsplit : performAll (operation :: rest) =
        perform operation >>= fun _ => performAll rest := rfl
    rw [hsplit, runOn_bind, runOn_perform, hnone]
    exact ih hkept hrest

end Procedure

/-- An operation that drives a machine with the program that it has. -/
def Operation.Drives : Operation → Prop
  | .load _ | .step | .stepBack | .run _ | .play | .pause => True
  | .setHead _ | .compile _ | .setCapacity _ => False

namespace Machine

variable {m : Machine}

/-- To drive a machine does not change its program. -/
theorem table_perform {operation : Operation} (h : operation.Drives) :
    (m.perform operation).table = m.table := by
  cases operation with
  | load input => rfl
  | step => exact table_step m
  | stepBack => exact table_stepBack m
  | run bound => exact table_run m bound
  | play => exact table_play m
  | pause => exact table_pause m
  | setHead position => exact h.elim
  | compile source => exact h.elim
  | setCapacity capacity => exact h.elim

/-- A machine that knows directions only can be driven. -/
theorem failure?_eq_none (hm : m.table.HasDirections) {operation : Operation}
    (h : operation.Drives) : m.failure? operation = none := by
  cases operation with
  | load input => rfl
  | step => rw [failure?, fault?_eq_none hm]; rfl
  | stepBack => rfl
  | run bound => rw [failure?, (run_eq_iterate hm bound).2]; rfl
  | play => rfl
  | pause => rfl
  | setHead position => exact h.elim
  | compile source => exact h.elim
  | setCapacity capacity => exact h.elim

/-- A program that was compiled takes the place of the old one, and nothing else is left of that but
the input and the bound on the history. -/
theorem install_eq {source : String} {program : Program} (h : Program.ofSource source = .ok program)
    (m : Machine) :
    m.install program = (ofTable program.table m.history.capacity).load m.input := by
  obtain ⟨rules, -, -, rfl⟩ := Program.ofSource_eq_ok h
  rfl

end Machine

namespace Procedure

/-- A refused request changes nothing, whatever the machine. A program that is taken makes the
machine one that is fresh but for the bound on its history, with the input loaded last; and nothing
that it is driven with fails. -/
theorem refused_unchanged_installed_fresh (m : Machine) :
    (∀ source e, Program.ofSource source = .error e →
      (compile source).runOn m = (.error (.ofCompile e), m)) ∧
    (∀ position < 0,
      (setHead position).runOn m = (.error (.machine (.negativeHead position)), m)) ∧
    (∀ size < 0, ∃ e, (setCapacity (some size)).runOn m = (.error (.machine e), m)) ∧
    ∀ source program, Program.ofSource source = .ok program →
      (compile source).runOn m =
        (.ok (), (Machine.ofTable program.table m.history.capacity).load m.input) ∧
      ∀ operations, (∀ o ∈ operations, o.Drives) →
        (compile source >>= fun _ => performAll operations).runOn m =
          (.ok (), ((Machine.ofTable program.table m.history.capacity).load m.input).performAll
            operations) := by
  have hinstall : ∀ source program, Program.ofSource source = .ok program →
      (compile source).runOn m =
        (.ok (), (Machine.ofTable program.table m.history.capacity).load m.input) := by
    intro source program hsource
    rw [runOn_compile, Machine.compile, hsource, ← Machine.install_eq hsource]
    rfl
  refine ⟨fun source e hsource => ?_, fun position hposition => ?_, fun size hsize => ?_,
    fun source program hsource => ⟨hinstall source program hsource, fun operations hall => ?_⟩⟩
  · rw [runOn_compile, Machine.compile, hsource]
    rfl
  · rw [runOn_setHead, Machine.setHead, if_pos hposition]
    rfl
  · obtain ⟨e, he⟩ : ∃ e, capacity? (some size) = .error e := by
      cases hword : fitsWord size with
      -- a number that does not fit a word is refused before its sign is looked at
      | true => exact ⟨.negativeCapacity, by simp [capacity?, hword, hsize]⟩
      | false => exact ⟨.wideCapacity, by simp [capacity?, hword]⟩
    refine ⟨e, ?_⟩
    rw [runOn_setCapacity, Machine.setCapacity, he]
    rfl
  · rw [runOn_bind, hinstall source program hsource]
    have hdirections : program.table.HasDirections :=
      (Program.isCompiled_of_ofSource hsource).hasDirections
    -- driving keeps the table, and with it that no step fails
    refine runOn_performAll (P := fun m => m.table.HasDirections) (A := Operation.Drives)
      (fun hm ho => ⟨Machine.failure?_eq_none hm ho, ?_⟩) hdirections hall
    rwa [Machine.table_perform ho]

/-- A machine that has rejected, with a history. -/
def stuckMachine : Machine :=
  (Machine.ofTable .empty (some 1)).performAll [.load "ab", .step]

/-- A text that is no program leaves the machine rejected; one that is makes it fresh, and it can be
driven to and fro. -/
theorem refused_unchanged_installed_fresh_stuck :
    (compile "q0").runOn stuckMachine =
      (.error (.ofCompile (.malformed "q0" 1)), stuckMachine) ∧
    (setHead (-3)).runOn stuckMachine =
      (.error (.machine (.negativeHead (-3))), stuckMachine) ∧
    ∃ program, Program.ofSource "q0 a/b,R q0" = .ok program ∧
      (compile "q0 a/b,R q0" >>= fun _ =>
        performAll [.step, .stepBack, .play, .run 9, .pause]).runOn stuckMachine =
          (.ok (), ((Machine.ofTable program.table (some 1)).load "ab").performAll
            [.step, .stepBack, .play, .run 9, .pause]) := by
  obtain ⟨hrefused, hposition, -, hinstalled⟩ := refused_unchanged_installed_fresh stuckMachine
  refine ⟨hrefused _ _ (by decide +kernel), hposition _ (by decide), ?_⟩
  cases hsource : Program.ofSource "q0 a/b,R q0" with
  | error e =>
    have hok : (Program.ofSource "q0 a/b,R q0").isOk = true := by decide +kernel
    rw [hsource] at hok
    contradiction
  | ok program =>
    exact ⟨program, rfl, (hinstalled _ program hsource).2 _ (by simp [Operation.Drives])⟩

end Procedure

end TapeMachine
