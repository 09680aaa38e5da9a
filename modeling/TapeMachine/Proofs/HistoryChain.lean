import Mathlib.Data.List.Chain
import TapeMachine.Proofs.CompiledTable
import TapeMachine.Proofs.Preservation

/-!
# The history is a chain of configurations

Whatever is done to a machine, its history holds configurations that the current program leads
through one after the other, and from the newest of them to the configuration at hand. So a step
back always comes to a configuration that existed.

The invariant is kept newest first, as the history is laid out. It needs two facts besides the
chain: the program has directions only, and a machine that still runs is not in the accepting state.

## Main results

- `isKept_isLinked`: no operation breaks the invariant
- `historyIsGenuine_performAll`: after any sequence of operations the history is a chain
-/

namespace TapeMachine

/-- One transition leads from a snapshot to a configuration, and counts as one step. -/
def Table.Leads (table : Table) (s : Snapshot) (next : Configuration) (stepCount : Nat) : Prop :=
  table.fire? s.configuration = some next ∧ stepCount = s.stepCount + 1

/-- A snapshot that a machine can go on from. -/
def Snapshot.IsOpen (s : Snapshot) : Prop := s.status.isTerminal = false ∧ s.state ≠ acceptState

/-- Snapshots, newest first, each of which is led to by the one before it in time. -/
structure Table.IsTrail (table : Table) (kept : List Snapshot) : Prop where
  isOpen : ∀ s ∈ kept, s.IsOpen
  linked : kept.IsChain fun newer older => table.Leads older newer.configuration newer.stepCount

namespace Table.IsTrail

variable {table : Table} {kept : List Snapshot} {s : Snapshot}

theorem nil (table : Table) : table.IsTrail [] := ⟨fun _ hs => absurd hs List.not_mem_nil, .nil⟩

theorem cons (h : table.IsTrail kept) (hs : s.IsOpen)
    (hleads : ∀ older ∈ kept.head?, table.Leads older s.configuration s.stepCount) :
    table.IsTrail (s :: kept) :=
  ⟨List.forall_mem_cons.2 ⟨hs, h.isOpen⟩, List.isChain_cons.2 ⟨hleads, h.linked⟩⟩

/-- The oldest snapshots may go. -/
theorem take (h : table.IsTrail kept) (n : Nat) : table.IsTrail (kept.take n) :=
  ⟨fun s hs => h.isOpen s (List.mem_of_mem_take hs), h.linked.take n⟩

/-- The newest snapshot may be taken out; the next one leads to it. -/
theorem of_cons (h : table.IsTrail (s :: kept)) :
    s.IsOpen ∧ table.IsTrail kept ∧
      ∀ older ∈ kept.head?, table.Leads older s.configuration s.stepCount := by
  obtain ⟨hleads, hlinked⟩ := List.isChain_cons.1 h.linked
  obtain ⟨hs, hrest⟩ := List.forall_mem_cons.1 h.isOpen
  exact ⟨hs, ⟨hrest, hlinked⟩, hleads⟩

end Table.IsTrail

theorem mem_head?_of_take {α : Type} {xs : List α} {n : Nat} {x : α} (h : x ∈ (xs.take n).head?) :
    x ∈ xs.head? := by
  rw [List.head?_take] at h
  split at h
  · contradiction
  · exact h

namespace Machine

/-! ## The invariant -/

/-- The newest snapshot leads to the machine at hand; if that has rejected, it is the same. -/
def Continues (m : Machine) (s : Snapshot) : Prop :=
  if m.status = .rejected then s.configuration = m.configuration ∧ s.stepCount = m.stepCount
  else m.table.Leads s m.configuration m.stepCount

/-- What every operation keeps: the history is a trail that ends at the machine. -/
structure IsLinked (m : Machine) : Prop where
  directions : m.table.HasDirections
  notAccepting : m.status.isTerminal = false → m.state ≠ acceptState
  trail : m.table.IsTrail m.history.kept
  newest : ∀ s ∈ m.history.kept.head?, m.Continues s

/-- A machine that starts over has no history. -/
theorem isLinked_restart (m : Machine) (h : m.table.HasDirections) : m.restart.IsLinked where
  directions := h
  notAccepting _ := (by decide : startState ≠ acceptState)
  trail := .nil m.table
  newest s hs := absurd hs (Option.not_mem_none s)

theorem isLinked_ofTable {table : Table} (h : table.HasDirections) (capacity : Option Nat) :
    (ofTable table capacity).IsLinked :=
  isLinked_restart (ofTable table capacity) h

variable {m : Machine}

/-- To change the bound on the history drops at most its oldest snapshots. -/
theorem IsLinked.resize (h : m.IsLinked) (capacity : Option Nat) :
    IsLinked { m with history := m.history.resize capacity } := by
  refine ⟨h.directions, h.notAccepting, ?_, fun s hs => ?_⟩
  · show m.table.IsTrail (m.history.resize capacity).kept
    rw [History.kept_resize]
    exact h.trail.take _
  · change s ∈ (m.history.resize capacity).kept.head? at hs
    rw [History.kept_resize] at hs
    exact h.newest s (mem_head?_of_take hs)

/-- While a machine runs it does not matter what it is said to do. -/
theorem IsLinked.withStatus (h : m.IsLinked) (hm : m.status.isTerminal = false) {status : Status}
    (hstatus : status.isTerminal = false) : IsLinked { m with status := status } := by
  refine ⟨h.directions, fun _ => h.notAccepting hm, h.trail, fun s hs => ?_⟩
  have hs := h.newest s hs
  -- neither status is a rejection, so the same is asked of the newest snapshot
  rw [Continues, if_neg (Status.ne_rejected_of_not_terminal hm)] at hs
  rw [Continues, if_neg (Status.ne_rejected_of_not_terminal hstatus)]
  exact hs

theorem IsLinked.play (h : m.IsLinked) : m.play.IsLinked :=
  play_induction (P := IsLinked) (fun _ hm hstatus => h.withStatus hm hstatus) h

theorem IsLinked.pause (h : m.IsLinked) : m.pause.IsLinked :=
  pause_induction (P := IsLinked) (fun _ hm hstatus => h.withStatus hm hstatus) h

/-! ## Stepping forth and back -/

/-- The history of a machine that goes on: its configuration in front of what there is room for. -/
theorem IsLinked.trail_remember (h : m.IsLinked) (hm : m.status.isTerminal = false) :
    m.table.IsTrail m.remember.history.kept ∧
      ∀ s ∈ m.remember.history.kept.head?, s = m.snapshot := by
  have hkept : m.remember.history.kept =
      (m.snapshot :: m.history.kept).take (History.allowed m.history.capacity
        (m.history.size + 1)) := History.kept_push m.history m.snapshot
  have hleads : ∀ older ∈ m.history.kept.head?,
      m.table.Leads older m.snapshot.configuration m.snapshot.stepCount := by
    intro older holder
    have := h.newest older holder
    rwa [Continues, if_neg (Status.ne_rejected_of_not_terminal hm)] at this
  -- a bounded history may drop its oldest snapshots, or even the new one
  rw [hkept]
  refine ⟨(h.trail.cons ⟨hm, h.notAccepting hm⟩ hleads).take _, fun s hs => ?_⟩
  exact (Option.some.inj (mem_head?_of_take hs)).symm

theorem IsLinked.step (h : m.IsLinked) : m.step.IsLinked := by
  cases hm : m.status.isTerminal with
  | true => rwa [step_of_terminal hm]
  | false =>
    obtain ⟨htrail, hnewest⟩ := h.trail_remember hm
    cases houtcome : m.table.outcome m.configuration with
    -- no step accepts in place: a machine that still runs is not in the accepting state
    | accepts => exact absurd (Table.state_of_accepts houtcome) (h.notAccepting hm)
    | faults move => exact absurd houtcome (Table.outcome_ne_faults h.directions _ _)
    | rejects why =>
      rw [step_of_rejects hm houtcome]
      refine ⟨h.directions, fun hreject => absurd hreject Bool.noConfusion, htrail, fun s hs => ?_⟩
      obtain rfl := hnewest s hs
      exact ⟨rfl, rfl⟩
    | fires next =>
      rw [step_of_fires hm houtcome]
      -- a transition accepts or leaves the status alone
      have hne : (m.remember.moveTo next).status ≠ .rejected := by
        intro hreject
        by_cases hnext : next.state = acceptState
        · have : (m.remember.moveTo next).status = .accepted := if_pos hnext
          rw [hreject] at this
          contradiction
        · have : (m.remember.moveTo next).status = m.status := if_neg hnext
          exact Status.ne_rejected_of_not_terminal hm (this.symm.trans hreject)
      refine ⟨h.directions, fun hopen hnext => ?_, htrail, fun s hs => ?_⟩
      · have : (m.remember.moveTo next).status = .accepted := if_pos hnext
        rw [this] at hopen
        contradiction
      · obtain rfl := hnewest s hs
        rw [Continues, if_neg hne]
        exact ⟨Table.fire?_eq_some.2 houtcome, rfl⟩

/-- A step back comes to the newest snapshot, and the next one leads there. -/
theorem IsLinked.stepBack (h : m.IsLinked) : m.stepBack.IsLinked := by
  unfold Machine.stepBack
  split
  · exact h
  · rename_i s history hpop
    -- the chain gives back what the invariant needs for the snapshot that is restored
    have htrail := h.trail
    rw [History.kept_of_pop? hpop] at htrail
    obtain ⟨hopen, hrest, hleads⟩ := htrail.of_cons
    exact ⟨h.directions, fun _ => hopen.2, hrest, hleads⟩

/-! ## All operations -/

/-- No operation breaks the chain. To load, to move the head and to compile are to start over. -/
theorem isKept_isLinked : IsKept IsLinked where
  load _ h := isLinked_restart _ h.directions
  place _ h := isLinked_restart _ h.directions
  install hsource _ := isLinked_restart _ (Program.isCompiled_of_ofSource hsource).hasDirections
  step h := h.step
  stepBack h := h.stepBack
  play h := h.play
  pause h := h.pause
  resize capacity h := h.resize capacity

theorem isLinked_performAll (h : m.IsLinked) (operations : List Operation) :
    (m.performAll operations).IsLinked :=
  isKept_isLinked.performAll h operations

/-- The snapshots of the history, oldest first, are consecutive configurations, and the newest one
    comes right before the machine at hand. -/
structure HistoryIsGenuine (m : Machine) : Prop where
  isOpen : ∀ s ∈ m.history.toList, s.status.isTerminal = false ∧ s.state ≠ acceptState
  consecutive : m.history.toList.IsChain fun older newer =>
    m.table.fire? older.configuration = some newer.configuration ∧
      newer.stepCount = older.stepCount + 1
  newest : ∀ s, m.history.toList.getLast? = some s → m.status ≠ .rejected →
    m.table.fire? s.configuration = some m.configuration ∧ m.stepCount = s.stepCount + 1
  newest_of_rejected : ∀ s, m.history.toList.getLast? = some s → m.status = .rejected →
    s.configuration = m.configuration ∧ s.stepCount = m.stepCount

theorem IsLinked.historyIsGenuine (h : m.IsLinked) : m.HistoryIsGenuine := by
  -- oldest first, the newest snapshot is the last one
  have hlast : m.history.toList.getLast? = m.history.kept.head? := by
    rw [History.toList, List.getLast?_reverse]
  refine ⟨fun s hs => h.trail.isOpen s (List.mem_reverse.1 hs),
    List.isChain_reverse.2 h.trail.linked, fun s hs hstatus => ?_, fun s hs hstatus => ?_⟩
  · rw [hlast] at hs
    have := h.newest s hs
    rwa [Continues, if_neg hstatus] at this
  · rw [hlast] at hs
    have := h.newest s hs
    rwa [Continues, if_pos hstatus] at this

/-- After any sequence of operations on a machine with directions only, whatever its capacity, the
    history is a chain of genuine consecutive configurations. -/
theorem historyIsGenuine_performAll {table : Table} (h : table.HasDirections)
    (capacity : Option Nat) (operations : List Operation) :
    ((ofTable table capacity).performAll operations).HistoryIsGenuine :=
  (isLinked_performAll (isLinked_ofTable h capacity) operations).historyIsGenuine

/-- A table that goes to and fro and then finds no transition. -/
def pacingTable : Table :=
  .ofList [⟨"q0", "_", "_", "R", "q1", 0, "_/_,R"⟩, ⟨"q1", "_", "a", "L", "q0", 1, "_/a,L"⟩]

/-- Steps forth and back between requests that are refused, with room for two snapshots in the
    end. -/
def pacingOperations : List Operation :=
  [.load "", .step, .compile "q0", .step, .setCapacity (some 2), .run 9, .stepBack, .setHead (-1),
    .stepBack, .run 1, .play, .step, .step]

/-- The chain in a history that was cut and is full again, of a machine that has rejected. -/
theorem historyIsGenuine_performAll_pacing :
    pacingTable.HasDirections ∧
      ((ofTable pacingTable none).performAll pacingOperations).HistoryIsGenuine ∧
      ((ofTable pacingTable none).performAll pacingOperations).history.size = 2 :=
  ⟨by decide, historyIsGenuine_performAll (by decide) none pacingOperations, by decide +kernel⟩

end Machine

end TapeMachine
