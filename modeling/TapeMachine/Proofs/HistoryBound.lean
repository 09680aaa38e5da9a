import Mathlib.Data.List.Infix
import TapeMachine.Proofs.Configuration

/-!
# The bound on the history only bounds the way back

A machine with a bounded history and one that forgets nothing do the same as long as the first one
has something to go back to. Apart from a step back no operation looks at the history; so the two
machines differ in their histories alone, and the shorter one holds the newest snapshots of the
longer one.

## Main results

- `RemembersLess.perform`: one operation on both machines
- `RemembersLess.resize`: another bound for one of them
- `agrees_performAll`: the two machines after every operation of a sequence
-/

namespace TapeMachine

/-- Does the operation change the bound on the history? -/
def Operation.isResize : Operation → Bool
  | .setCapacity _ => true
  | _ => false

namespace Machine

/-- The second machine is the first one with a longer history, one that forgets nothing. -/
def RemembersLess (m u : Machine) : Prop :=
  ∃ history : History Snapshot, u = { m with history := history } ∧ history.capacity = none ∧
    m.history.kept <+: history.kept

namespace RemembersLess

variable {m u : Machine}

/-! ## One operation -/

/-- Both histories are empty after a restart. -/
theorem restart (h : m.RemembersLess u) : m.restart.RemembersLess u.restart := by
  obtain ⟨history, rfl, hunbounded, -⟩ := h
  exact ⟨history.clear, rfl, hunbounded, List.nil_prefix⟩

theorem load (h : m.RemembersLess u) (input : Text.Loose) :
    (m.load input).RemembersLess (u.load input) := by
  obtain ⟨history, rfl, hunbounded, hkept⟩ := h
  exact restart ⟨history, rfl, hunbounded, hkept⟩

theorem play (h : m.RemembersLess u) : m.play.RemembersLess u.play := by
  obtain ⟨history, rfl, hunbounded, hkept⟩ := h
  unfold Machine.play
  dsimp only
  split
  · exact ⟨history, rfl, hunbounded, hkept⟩
  · exact ⟨history, rfl, hunbounded, hkept⟩

theorem pause (h : m.RemembersLess u) : m.pause.RemembersLess u.pause := by
  obtain ⟨history, rfl, hunbounded, hkept⟩ := h
  unfold Machine.pause
  dsimp only
  split
  · exact ⟨history, rfl, hunbounded, hkept⟩
  · exact ⟨history, rfl, hunbounded, hkept⟩

/-- The same snapshot is put into both histories, and the shorter one may drop its oldest ones. -/
theorem remember (h : m.RemembersLess u) : m.remember.RemembersLess u.remember := by
  obtain ⟨history, rfl, hunbounded, hkept⟩ := h
  refine ⟨history.push m.snapshot, rfl, ?_, ?_⟩
  · rw [History.capacity_push, hunbounded]
  · have hcons : m.snapshot :: m.history.kept <+: m.snapshot :: history.kept :=
      List.cons_prefix_cons.2 ⟨rfl, hkept⟩
    rw [History.kept_push_of_unbounded hunbounded]
    show (m.history.push m.snapshot).kept <+: _
    rw [History.kept_push]
    exact (List.take_prefix _ _).trans hcons

theorem step (h : m.RemembersLess u) : m.step.RemembersLess u.step := by
  have hremember := h.remember
  obtain ⟨history, rfl, hunbounded, hkept⟩ := h
  obtain ⟨history', hu, hunbounded', hkept'⟩ := hremember
  rw [step_eq, step_eq, hu]
  -- both machines look up the same transition, since they have the same configuration
  have hconfiguration : configuration { m with history := history } = m.configuration := rfl
  rw [hconfiguration]
  dsimp only
  split
  · exact ⟨history, rfl, hunbounded, hkept⟩
  · split
    · exact ⟨history', rfl, hunbounded', hkept'⟩
    · exact ⟨history', rfl, hunbounded', hkept'⟩
    · exact ⟨history', rfl, hunbounded', hkept'⟩
    · exact ⟨history', rfl, hunbounded', hkept'⟩

/-- The newest snapshots are the same as long as the shorter history has one. -/
theorem stepBack (h : m.RemembersLess u) (hm : m.history.toList ≠ []) :
    m.stepBack.RemembersLess u.stepBack := by
  obtain ⟨history, rfl, hunbounded, hkept⟩ := h
  cases hm' : m.history.kept with
  | nil => exact absurd (by rw [History.toList, hm', List.reverse_nil]) hm
  | cons s kept =>
    obtain ⟨rest, hpop, hrest⟩ := History.exists_pop?_of_kept hm'
    rw [hm'] at hkept
    -- the longer history has what the shorter one has
    cases hlong : history.kept with
    | nil =>
      rw [hlong] at hkept
      exact absurd (List.prefix_nil.1 hkept) (List.cons_ne_nil s kept)
    | cons s' kept' =>
      rw [hlong] at hkept
      obtain ⟨rfl, hshorter⟩ := List.cons_prefix_cons.1 hkept
      obtain ⟨rest', hpop', hrest'⟩ := History.exists_pop?_of_kept hlong
      unfold Machine.stepBack
      dsimp only
      rw [hpop, hpop']
      refine ⟨rest', rfl, ?_, ?_⟩
      · rw [History.capacity_of_pop? hpop', hunbounded]
      · show rest.kept <+: rest'.kept
        rw [hrest, hrest']
        exact hshorter

theorem runFrom (h : m.RemembersLess u) (calls bound : Nat) :
    (runFrom calls bound m).machine.RemembersLess (runFrom calls bound u).machine := by
  induction bound generalizing m u calls with
  | zero => exact h
  | succ bound ih =>
    have hstep := h.step
    have hstatus : u.status = m.status := by obtain ⟨history, rfl, -, -⟩ := h; rfl
    have hfault : u.fault? = m.fault? := by obtain ⟨history, rfl, -, -⟩ := h; rfl
    unfold Machine.runFrom
    rw [hstatus, hfault]
    split
    · exact h
    · split
      · exact hstep
      · exact ih hstep (calls + 1)

/-- One operation on both machines; a step back only if there is a way back. -/
theorem perform (h : m.RemembersLess u) {operation : Operation}
    (hresize : operation.isResize = false)
    (hundo : operation = .stepBack → m.history.toList ≠ []) :
    (m.perform operation).RemembersLess (u.perform operation) := by
  cases operation with
  | load input => exact h.load input
  | setHead position =>
    show (m.orUnchanged (m.setHead position)).RemembersLess (u.orUnchanged (u.setHead position))
    unfold setHead
    by_cases hposition : position < 0
    · rw [if_pos hposition, if_pos hposition]
      exact h
    · rw [if_neg hposition, if_neg hposition]
      obtain ⟨history, rfl, hunbounded, hkept⟩ := h
      exact ⟨history.clear, rfl, hunbounded, List.nil_prefix⟩
  | step => exact h.step
  | stepBack => exact h.stepBack (hundo rfl)
  | run bound => exact h.runFrom 0 bound.toNat
  | play => exact h.play
  | pause => exact h.pause
  | compile source =>
    show (m.orUnchanged (m.compile source)).RemembersLess (u.orUnchanged (u.compile source))
    unfold compile
    cases Program.ofSource source with
    | error e => exact h
    | ok program =>
      obtain ⟨history, rfl, hunbounded, hkept⟩ := h
      exact ⟨history.clear, rfl, hunbounded, List.nil_prefix⟩
  | setCapacity capacity => exact nomatch hresize

/-- Another bound may drop the oldest snapshots of the shorter history, and never the newest. -/
theorem resize (h : m.RemembersLess u) (capacity : Option Int) :
    (m.perform (.setCapacity capacity)).RemembersLess u := by
  refine orUnchanged_of (P := fun m' => m'.RemembersLess u) h fun m' hm' => ?_
  obtain ⟨c, -, rfl⟩ := setCapacity_eq_ok hm'
  obtain ⟨history, rfl, hunbounded, hkept⟩ := h
  refine ⟨history, rfl, hunbounded, ?_⟩
  show (m.history.resize c).kept <+: history.kept
  rw [History.kept_resize]
  exact (List.take_prefix _ _).trans hkept

end RemembersLess

/-! ## Sequences of operations -/

/-- No step back is asked for while the history is empty. -/
def UndoesWithin (m : Machine) : List Operation → Prop
  | [] => True
  | operation :: rest =>
    (operation = .stepBack → m.history.toList ≠ []) ∧ (m.perform operation).UndoesWithin rest

instance decidableUndoesWithin : (m : Machine) → (operations : List Operation) →
    Decidable (m.UndoesWithin operations)
  | _, [] => isTrue trivial
  | m, operation :: rest =>
    have := decidableUndoesWithin (m.perform operation) rest
    inferInstanceAs (Decidable (_ ∧ _))

theorem UndoesWithin.of_prefix {m : Machine} {done operations : List Operation}
    (h : m.UndoesWithin operations) (hdone : done <+: operations) : m.UndoesWithin done := by
  induction done generalizing m operations with
  | nil => trivial
  | cons operation done ih =>
    obtain ⟨rest, rfl⟩ := hdone
    exact ⟨h.1, ih h.2 (List.prefix_append done rest)⟩

theorem RemembersLess.performAll {m u : Machine} (h : m.RemembersLess u)
    {operations : List Operation} (hundo : m.UndoesWithin operations) :
    (m.performAll operations).RemembersLess
      (u.performAll (operations.filter fun operation => !operation.isResize)) := by
  induction operations generalizing m u with
  | nil => exact h
  | cons operation rest ih =>
    cases hresize : operation.isResize with
    | false =>
      rw [List.filter_cons_of_pos (by rw [hresize]; rfl)]
      exact ih (h.perform hresize hundo.1) hundo.2
    | true =>
      rw [List.filter_cons_of_neg (by rw [hresize]; decide)]
      cases operation with
      | setCapacity capacity => exact ih (h.resize capacity) hundo.2
      | _ => contradiction

/-- Two machines that show the same, where the history of the first one is what the second one has
    at the end of its history. -/
structure Agrees (m u : Machine) : Prop where
  table : m.table = u.table
  graph : m.graph = u.graph
  input : m.input = u.input
  tape : m.tape = u.tape
  head : m.head = u.head
  headAsTruth : m.headAsTruth = u.headAsTruth
  state : m.state = u.state
  status : m.status = u.status
  stepCount : m.stepCount = u.stepCount
  lastError : m.lastError = u.lastError
  history : m.history.toList <:+ u.history.toList

theorem RemembersLess.agrees {m u : Machine} (h : m.RemembersLess u) : m.Agrees u := by
  obtain ⟨history, rfl, -, hkept⟩ := h
  exact ⟨rfl, rfl, rfl, rfl, rfl, rfl, rfl, rfl, rfl, rfl, List.reverse_suffix.2 hkept⟩

/-- A machine with any bound on its history agrees, after every operation of a sequence, with one
    without a bound that ignores the requests for another one; that is, if no step back is asked
    for without a history. -/
theorem agrees_performAll {table : Table} {capacity : Option Nat} {operations : List Operation}
    (hundo : (ofTable table capacity).UndoesWithin operations) {done : List Operation}
    (hdone : done <+: operations) :
    ((ofTable table capacity).performAll done).Agrees ((ofTable table none).performAll
      (done.filter fun operation => !operation.isResize)) := by
  have hfresh : (ofTable table capacity).RemembersLess (ofTable table none) :=
    ⟨.empty none, rfl, rfl, List.nil_prefix⟩
  exact (hfresh.performAll (hundo.of_prefix hdone)).agrees

/-- A table that writes one cell after the other. -/
def marchingTable : Table := .ofList [⟨"q0", "_", "a", "R", "q0", 0, "_/a,R"⟩]

/-- Bounds that are too small for the steps, in turn with steps back. -/
def marchingOperations : List Operation :=
  [.setCapacity (some 2), .run 3, .stepBack, .step, .setCapacity (some (-1)),
    .setCapacity (some 1), .stepBack, .setCapacity none, .run 2, .stepBack, .load "b"]

/-- The two machines before the last operation, when one of them has forgotten two snapshots. -/
theorem agrees_performAll_marching :
    (ofTable marchingTable (some 1)).UndoesWithin marchingOperations ∧
      marchingOperations.take 10 <+: marchingOperations ∧
      ((ofTable marchingTable (some 1)).performAll (marchingOperations.take 10)).Agrees
        ((ofTable marchingTable none).performAll
          ((marchingOperations.take 10).filter fun operation => !operation.isResize)) ∧
      ((ofTable marchingTable (some 1)).performAll (marchingOperations.take 10)).history.size = 1 ∧
      ((ofTable marchingTable none).performAll
        ((marchingOperations.take 10).filter fun operation => !operation.isResize)).history.size
          = 3 := by
  have hundo : (ofTable marchingTable (some 1)).UndoesWithin marchingOperations := by
    decide +kernel
  have hdone : marchingOperations.take 10 <+: marchingOperations := List.take_prefix _ _
  exact ⟨hundo, hdone, agrees_performAll hundo hdone, by decide +kernel, by decide +kernel⟩

end Machine

end TapeMachine
