import TapeMachine.Proofs.ReachableState
import TapeMachine.Proofs.Standing
import TapeMachine.Proofs.Undo

/-!
# Taking a step back and making it again

A step that was taken back can be made again: the machine comes to stand where it stood. It then
pauses if it has not halted, and that is all the difference there is.

This is not so for any machine and any history. It needs that every snapshot steps to the next one,
and the newest one to the machine at hand, by the current table. No operation breaks that: those
that change the table or the configuration otherwise drop the history, and a history that is cut
keeps its newest snapshots. The table may hold anything; a step that fails fails again.

## Main results

- `isKept_isRetraceable`: no operation breaks the invariant
- `kept_step_stepBack`: there is room in the history for a step that was taken back
- `step_stepBack_redoes`: a step back and a step, in every state that operations lead to
-/

namespace TapeMachine

/-- Where a step back to a snapshot leads. -/
def Snapshot.standing (s : Snapshot) : Standing where
  configuration := s.configuration
  headAsTruth := s.headAsTruth
  stepCount := s.stepCount
  status := .paused
  lastError := none

namespace Machine

/-! ## The invariant -/

/-- Each snapshot steps to the next one, and the newest one to the machine, all of them at rest. -/
structure IsRetraceable (m : Machine) : Prop where
  sound : m.IsSound
  linked : m.history.kept.IsChain fun newer older => older.standing.step m.table = newer.standing
  newest : ∀ s ∈ m.history.kept.head?, s.standing.step m.table = m.standing.atRest

variable {m : Machine}

/-- Without a history there is nothing to retrace. -/
theorem isRetraceable_of_kept_eq_nil (hsound : m.IsSound) (h : m.history.kept = []) :
    m.IsRetraceable := by
  refine ⟨hsound, ?_, ?_⟩
  · simp [h]
  · simp [h]

namespace IsRetraceable

/-- To cut the history keeps its newest snapshots. -/
theorem resize (h : m.IsRetraceable) (capacity : Option Nat) :
    IsRetraceable { m with history := m.history.resize capacity } := by
  have hkept := History.kept_resize m.history capacity
  refine ⟨h.sound.resize capacity, ?_, fun s hs => ?_⟩
  · show (m.history.resize capacity).kept.IsChain _
    rw [hkept]
    exact h.linked.take _
  · change s ∈ (m.history.resize capacity).kept.head? at hs
    rw [hkept] at hs
    exact h.newest s (mem_head?_of_take hs)

/-- At rest a machine that still runs is the same under every status. -/
theorem withStatus (h : m.IsRetraceable) (hm : m.status.isTerminal = false) {status : Status}
    (hstatus : status.isTerminal = false) : IsRetraceable { m with status := status } := by
  have hrest : standing { m with status := status } = { m.standing with status := status } := rfl
  refine ⟨h.sound.withStatus hm hstatus, h.linked, fun s hs => ?_⟩
  rw [hrest, Standing.atRest_withStatus hm hstatus]
  exact h.newest s hs

theorem play (h : m.IsRetraceable) : m.play.IsRetraceable :=
  play_induction (P := IsRetraceable) (fun _ hm hstatus => h.withStatus hm hstatus) h

theorem pause (h : m.IsRetraceable) : m.pause.IsRetraceable :=
  pause_induction (P := IsRetraceable) (fun _ hm hstatus => h.withStatus hm hstatus) h

/-- What a machine that goes on puts into its history is itself, at rest. -/
theorem standing_snapshot (h : m.IsRetraceable) (hm : m.status.isTerminal = false) :
    m.snapshot.standing = m.standing.atRest := by
  have herror : m.lastError = none := h.sound.lastError_eq_none hm
  rw [Standing.atRest_of_not_terminal hm, standing, herror]
  rfl

theorem step (h : m.IsRetraceable) : m.step.IsRetraceable := by
  cases hm : m.status.isTerminal with
  | true => rwa [step_of_terminal hm]
  | false =>
    have hsnapshot := h.standing_snapshot hm
    have hkept : m.step.history.kept = (m.snapshot :: m.history.kept).take
        (History.allowed m.history.capacity (m.history.size + 1)) := by
      rw [history_step hm, History.kept_push]
    refine ⟨h.sound.step, ?_, fun s hs => ?_⟩
    · rw [hkept, table_step]
      apply List.IsChain.take
      -- what was the newest snapshot steps to the machine that is put in front of it
      apply List.isChain_cons.2
      refine ⟨?_, h.linked⟩
      rw [hsnapshot]
      exact h.newest
    · rw [hkept] at hs
      obtain rfl := Option.some.inj (mem_head?_of_take hs)
      rw [table_step, standing_step, hsnapshot, Standing.step_atRest]

/-- A step back comes to stand where the newest snapshot says, and the next one steps there. -/
theorem stepBack (h : m.IsRetraceable) : m.stepBack.IsRetraceable := by
  have hsound := h.sound.stepBack
  unfold Machine.stepBack at hsound ⊢
  split
  · exact h
  · rename_i s rest hpop
    rw [hpop] at hsound
    have hlinked := h.linked
    rw [History.kept_of_pop? hpop] at hlinked
    obtain ⟨hnewest, hrest⟩ := List.isChain_cons.1 hlinked
    exact ⟨hsound, hrest, hnewest⟩

end IsRetraceable

theorem isKept_isRetraceable : IsKept IsRetraceable where
  load input h := isRetraceable_of_kept_eq_nil (isKept_isSound.load input h.sound) rfl
  place position h := isRetraceable_of_kept_eq_nil (isKept_isSound.place position h.sound) rfl
  install hsource h :=
    isRetraceable_of_kept_eq_nil (isKept_isSound.install hsource h.sound) rfl
  step h := h.step
  stepBack h := h.stepBack
  play h := h.play
  pause h := h.pause
  resize capacity h := h.resize capacity

/-! ## One step back and one forth -/

/-- A step back comes to stand where the newest snapshot says. -/
theorem standing_stepBack {s : Snapshot} {older : List Snapshot}
    (hkept : m.history.kept = s :: older) : m.stepBack.standing = s.standing := by
  obtain ⟨rest, hpop, -⟩ := History.exists_pop?_of_kept hkept
  unfold Machine.stepBack
  rw [hpop]
  rfl

/-- There is room in the history for a step that was taken back. -/
theorem kept_step_stepBack (hfits : m.history.Fits) {s : Snapshot} {older : List Snapshot}
    (hkept : m.history.kept = s :: older) :
    m.stepBack.step.history.kept = { s with status := .paused } :: older := by
  have hpaused : m.stepBack.status = .paused :=
    congrArg Standing.status (standing_stepBack hkept)
  rw [history_step (by rw [hpaused]; rfl)]
  -- what is put in takes the place of what was taken out
  obtain ⟨rest, hpop, hrest⟩ := History.exists_pop?_of_kept hkept
  unfold Machine.stepBack
  rw [hpop]
  show (rest.push _).kept = _
  rw [History.kept_push_of_pop? hfits hpop, hrest]
  rfl

/-- The second machine is the first one again: it pauses unless it has halted, and so says its newest
snapshot. -/
structure IsRedone (m redone : Machine) : Prop where
  setup : redone.setup = m.setup
  standing : redone.standing =
    { m.standing with status := if m.status.isTerminal then m.status else .paused }
  history : ∃ older newest, m.history.toList = older ++ [newest] ∧
    redone.history.toList = older ++ [{ newest with status := .paused }]

theorem IsRetraceable.isRedone (h : m.IsRetraceable) (hm : m.history.toList ≠ []) :
    m.IsRedone m.stepBack.step := by
  have hne : m.history.kept ≠ [] := fun hnil => hm (by rw [History.toList, hnil, List.reverse_nil])
  obtain ⟨s, older, hkept⟩ := List.exists_cons_of_ne_nil hne
  refine ⟨by rw [setup_step, setup_stepBack], ?_, older.reverse, s, ?_, ?_⟩
  · -- the newest snapshot is what is restored, and it steps to the machine at rest
    have hnewest : s.standing.step m.table = m.standing.atRest := h.newest s (by rw [hkept]; rfl)
    rw [standing_step, standing_stepBack hkept, table_stepBack, hnewest, Standing.atRest]
    show (if m.status.isTerminal then _ else _) = _
    split <;> rfl
  · rw [History.toList, hkept, List.reverse_cons]
  · rw [History.toList, kept_step_stepBack h.sound.fits hkept, List.reverse_cons]

/-- In every state with a history that operations lead to, a step back followed by a step restores
the machine, and with directions only that step does not fail. -/
theorem step_stepBack_redoes {table : Table} {capacity : Option Nat} {m : Machine}
    (h : ReachableFrom table capacity m) (hm : m.history.toList ≠ []) :
    m.IsRedone m.stepBack.step ∧ (m.table.HasDirections → m.stepBack.fault? = none) := by
  have hfresh := isRetraceable_of_kept_eq_nil (isSound_ofTable table capacity) rfl
  refine ⟨(isKept_isRetraceable.reachableFrom hfresh h).isRedone hm, fun hdirections => ?_⟩
  apply fault?_eq_none
  rwa [table_stepBack]

/-- A machine that rejects in its second step and is then told to remember one step only. -/
def stuckMachine : Machine :=
  ((((ofTable .empty none).perform (.load "a")).perform (.compile "q0 a/b,R q1")).perform
    (.run 5)).perform (.setCapacity (some 1))

theorem reachableFrom_stuckMachine : ReachableFrom .empty none stuckMachine :=
  .perform _ (.perform _ (.perform _ (.perform _ .fresh)))

/-- The step that rejects is taken back and made again. -/
theorem step_stepBack_redoes_stuck :
    ReachableFrom .empty none stuckMachine ∧ stuckMachine.history.toList ≠ [] ∧
      stuckMachine.IsRedone stuckMachine.stepBack.step ∧
      (stuckMachine.table.HasDirections → stuckMachine.stepBack.fault? = none) ∧
      stuckMachine.stepBack.step.status = .rejected := by
  have hhistory : stuckMachine.history.toList ≠ [] := by decide +kernel
  obtain ⟨hredone, hfault⟩ := step_stepBack_redoes reachableFrom_stuckMachine hhistory
  exact ⟨reachableFrom_stuckMachine, hhistory, hredone, hfault, by decide +kernel⟩

end Machine

end TapeMachine
