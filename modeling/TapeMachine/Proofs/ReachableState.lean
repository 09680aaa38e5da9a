import TapeMachine.Proofs.CleanTape
import TapeMachine.Proofs.HistoryChain
import TapeMachine.Proofs.Preservation

/-!
# What can be relied on in every state

The parts of a machine are not independent of each other: the status tells the state and the error,
the step count tells where the state comes from, the graph is that of the table. All this holds
whatever is done to a machine, because it holds of the snapshots as well: a step back must not
bring back a machine that has halted.

## Main results

- `isKept_isSound`: no operation breaks the invariant, and `IsSound.stepBack` shows why it speaks
  of snapshots
- `not_implicitAccept`: no step accepts without a transition
- `isConsistent_performAll`: what holds of a machine after any sequence of operations
-/

namespace TapeMachine

/-- A step count and a state that belong together: without a transition the state is the first one,
and with one it is a node. -/
structure Graph.Locates (graph : Graph) (stepCount : Nat) (state : State) : Prop where
  start : stepCount = 0 → state = startState
  node : 0 < stepCount → state ∈ graph.nodes

theorem Graph.locates_start (graph : Graph) : graph.Locates 0 startState :=
  ⟨fun _ => rfl, fun h => absurd h (Nat.lt_irrefl 0)⟩

theorem Graph.target_mem_nodes {table : Table} {t : Transition} (ht : t ∈ table.transitions) :
    t.target ∈ (Graph.ofTable table).nodes := by
  have hmem : t.target ∈ table.transitions.flatMap fun t => [t.source, t.target] :=
    List.mem_flatMap.2 ⟨t, ht, by simp⟩
  exact mem_distinct.2 hmem

/-- A snapshot that is sound in a machine with a graph. -/
structure Snapshot.IsSound (graph : Graph) (s : Snapshot) : Prop where
  clean : s.tape.IsClean
  isOpen : s.IsOpen
  located : graph.Locates s.stepCount s.state

namespace Machine

/-! ## The invariant -/

/-- What every operation keeps. -/
structure IsSound (m : Machine) : Prop where
  graph_eq : m.graph = Graph.ofTable m.table
  clean : m.tape.IsClean
  located : m.graph.Locates m.stepCount m.state
  accepted_iff : m.status = .accepted ↔ m.state = acceptState
  rejected_iff : m.status = .rejected ↔ m.lastError ≠ none
  fits : m.history.Fits
  snapshots : ∀ s ∈ m.history.kept, s.IsSound m.graph

variable {m : Machine}

/-- A machine that starts over is sound if its tape is. -/
theorem isSound_restart (hgraph : m.graph = Graph.ofTable m.table) (hclean : m.tape.IsClean) :
    m.restart.IsSound where
  graph_eq := hgraph
  clean := hclean
  located := Graph.locates_start m.graph
  accepted_iff := by simp [restart]; decide
  rejected_iff := by simp [restart]
  fits := History.fits_clear m.history
  snapshots s hs := by simp [restart] at hs

theorem isSound_load (hgraph : m.graph = Graph.ofTable m.table) (input : Text.Loose) :
    (m.load input).IsSound :=
  isSound_restart hgraph (Tape.clean_empty.writeFrom 0 _)

theorem isSound_ofTable (table : Table) (capacity : Option Nat) :
    (ofTable table capacity).IsSound :=
  isSound_restart (m := ofTable table capacity) rfl Tape.clean_empty

namespace IsSound

theorem state_ne_acceptState (h : m.IsSound) (hm : m.status.isTerminal = false) :
    m.state ≠ acceptState := by
  intro hstate
  rw [h.accepted_iff.2 hstate] at hm
  contradiction

theorem lastError_eq_none (h : m.IsSound) (hm : m.status.isTerminal = false) :
    m.lastError = none := by
  by_contra herror
  exact Status.ne_rejected_of_not_terminal hm (h.rejected_iff.2 herror)

/-- The configuration of a machine that goes on may be put into its history. -/
theorem remember (h : m.IsSound) (hm : m.status.isTerminal = false) : m.remember.IsSound := by
  refine { h with fits := History.fits_push _ _, snapshots := fun s hs => ?_ }
  have hkept : s ∈ (m.history.push m.snapshot).kept := hs
  rw [History.kept_push] at hkept
  rcases List.mem_cons.1 (List.mem_of_mem_take hkept) with rfl | hold
  · exact ⟨h.clean, ⟨hm, h.state_ne_acceptState hm⟩, h.located⟩
  · exact h.snapshots s hold

/-- Between two states that are not final the status may change. -/
theorem withStatus (h : m.IsSound) (hm : m.status.isTerminal = false) {status : Status}
    (hstatus : status.isTerminal = false) : IsSound { m with status := status } := by
  have hstate := h.state_ne_acceptState hm
  have herror := h.lastError_eq_none hm
  refine { h with accepted_iff := ?_, rejected_iff := ?_ }
  · constructor
    · rintro rfl
      contradiction
    · exact fun haccept => absurd haccept hstate
  · constructor
    · rintro rfl
      contradiction
    · exact fun hreject => absurd herror hreject

theorem play (h : m.IsSound) : m.play.IsSound :=
  play_induction (P := IsSound) (fun _ hm hstatus => h.withStatus hm hstatus) h

theorem pause (h : m.IsSound) : m.pause.IsSound :=
  pause_induction (P := IsSound) (fun _ hm hstatus => h.withStatus hm hstatus) h

/-! ## Steps forth and back -/

/-- A machine that rejects stays where it is, which is not the accepting state. -/
theorem reject (h : m.IsSound) (hm : m.status.isTerminal = false) (why : Rejection) :
    (m.reject why).IsSound := by
  have hstate := h.state_ne_acceptState hm
  refine { h with accepted_iff := ?_, rejected_iff := ?_ }
  · simp [Machine.reject, hstate]
  · simp [Machine.reject]

/-- A transition leads to a node, and accepts just if that is the accepting state. -/
theorem moveTo (h : m.IsSound) (hm : m.status.isTerminal = false) {next : Configuration}
    (hfires : m.table.outcome m.configuration = .fires next) : (m.moveTo next).IsSound := by
  obtain ⟨t, direction, position, hlookup, -, -, rfl⟩ := Table.exists_of_fires hfires
  have ht := (Table.lookup_matched hlookup).1
  have hnode : t.target ∈ m.graph.nodes := by
    rw [h.graph_eq]
    exact Graph.target_mem_nodes ht
  have hne : m.status ≠ .accepted := fun hs => by rw [hs] at hm; contradiction
  have hne' := Status.ne_rejected_of_not_terminal hm
  have herror := h.lastError_eq_none hm
  refine { h with clean := ?_, located := ?_, accepted_iff := ?_, rejected_iff := ?_ }
  · exact h.clean.write _ _
  · exact ⟨fun hzero => absurd hzero (Nat.succ_ne_zero _), fun _ => hnode⟩
  · by_cases htarget : t.target = acceptState <;> simp [Machine.moveTo, htarget, hne]
  · by_cases htarget : t.target = acceptState <;> simp [Machine.moveTo, htarget, hne', herror]

theorem step (h : m.IsSound) : m.step.IsSound := by
  rw [step_eq]
  split
  · exact h
  · rename_i hm
    have hm := Bool.eq_false_iff.2 hm
    -- all but the last case leave the configuration as it is
    split
    · rename_i haccepts
      exact absurd (Table.state_of_accepts haccepts) (h.state_ne_acceptState hm)
    · exact (h.remember hm).reject hm _
    · exact h.remember hm
    · rename_i next hfires
      exact (h.remember hm).moveTo hm hfires

/-- What a step back restores was put into the history by a machine that went on. -/
theorem stepBack (h : m.IsSound) : m.stepBack.IsSound := by
  unfold Machine.stepBack
  split
  · exact h
  · rename_i s history hpop
    have hkept := History.kept_of_pop? hpop
    have hs : s.IsSound m.graph := h.snapshots s (by rw [hkept]; exact List.mem_cons_self)
    refine ⟨h.graph_eq, hs.clean, hs.located, ?_, ?_, History.fits_of_pop? h.fits hpop, ?_⟩
    · simp [hs.isOpen.2]
    · simp
    · intro older holder
      exact h.snapshots older (by rw [hkept]; exact List.mem_cons_of_mem s holder)

theorem resize (h : m.IsSound) (capacity : Option Nat) :
    IsSound { m with history := m.history.resize capacity } := by
  refine { h with fits := History.fits_resize _ _, snapshots := fun s hs => ?_ }
  have hkept : s ∈ (m.history.resize capacity).kept := hs
  rw [History.kept_resize] at hkept
  exact h.snapshots s (List.mem_of_mem_take hkept)

end IsSound

theorem isKept_isSound : IsKept IsSound where
  load input h := isSound_load h.graph_eq input
  place position h := isSound_restart h.graph_eq h.clean
  install {m source program} hsource h := by
    obtain ⟨rules, -, -, rfl⟩ := Program.ofSource_eq_ok hsource
    exact isSound_load rfl m.input
  step h := h.step
  stepBack h := h.stepBack
  play h := h.play
  pause h := h.pause
  resize capacity h := h.resize capacity

/-! ## What follows from it -/

/-- A machine that goes on is not in the accepting state, so it never accepts without a
transition. -/
theorem not_implicitAccept (h : m.IsSound) (hm : m.status.isTerminal = false) :
    m.table.lookup m.state m.mark ≠ .implicitAccept := by
  intro hlookup
  exact h.state_ne_acceptState hm (Table.lookup_implicitAccept hlookup)

theorem activeTransition?_eq_some {t : Transition} :
    m.activeTransition? = some t ↔
      m.status.isTerminal = false ∧ m.table.lookup m.state m.mark = .matched t := by
  unfold activeTransition? Lookup.transition?
  split
  · simp [*]
  · split <;> simp_all

/-- A step moves the head by the shift of its transition, as integers are added; only a step that
would make the position negative rejects. -/
theorem head_step {t : Transition} {direction : Direction} (ht : m.activeTransition? = some t)
    (hdirection : t.direction? = some direction) :
    if (m.head : Int) + direction.shift < 0 then m.step.head = m.head ∧ m.step.status = .rejected
    else (m.step.head : Int) = m.head + direction.shift := by
  obtain ⟨hm, hlookup⟩ := activeTransition?_eq_some.1 ht
  have houtcome := Table.outcome_of_matched (c := m.configuration) hlookup hdirection
  have hfrom := Direction.from?_eq direction m.head
  -- the sum of position and shift says whether the move leads off the tape
  split
  · rename_i hnegative
    rw [if_pos hnegative] at hfrom
    have hrejects : m.table.outcome m.configuration = .rejects .leftEnd := by
      rw [houtcome, show direction.from? m.configuration.head = none from hfrom]
    rw [step_of_rejects hm hrejects]
    exact ⟨rfl, rfl⟩
  · rename_i hnegative
    rw [if_neg hnegative] at hfrom
    have hfires : m.table.outcome m.configuration = .fires ⟨m.tape.write m.head t.write,
        ((m.head : Int) + direction.shift).toNat, t.target⟩ := by
      rw [houtcome, show direction.from? m.configuration.head = some _ from hfrom]
      rfl
    rw [step_of_fires hm hfires]
    exact Int.toNat_of_nonneg (Int.not_lt.1 hnegative)

/-- What can be relied on between two operations. -/
structure IsConsistent (m : Machine) : Prop where
  head_nonneg : (0 : Int) ≤ m.head
  /-- The position does not stop at cell zero: a step that would go further left rejects. -/
  head_step : ∀ t direction, m.activeTransition? = some t → t.direction? = some direction →
    if (m.head : Int) + direction.shift < 0 then m.step.head = m.head ∧ m.step.status = .rejected
    else (m.step.head : Int) = m.head + direction.shift
  cells : ∀ cell ∈ m.tape.cells, (0 : Int) ≤ cell.1 ∧ cell.2 ≠ blank
  accepted_iff : m.status = .accepted ↔ m.state = acceptState
  rejected_iff : m.status = .rejected ↔ m.lastError ≠ none
  state_of_zero : m.stepCount = 0 → m.state = startState
  state_of_pos : 0 < m.stepCount → m.state ∈ m.graph.nodes
  graph_eq : m.graph = Graph.ofTable m.table
  history_le : ∀ n, m.history.capacity = some n → m.history.toList.length ≤ n
  not_implicitAccept : m.status.isTerminal = false →
    m.table.lookup m.state m.mark ≠ .implicitAccept

theorem IsSound.isConsistent (h : m.IsSound) : m.IsConsistent where
  head_nonneg := Int.natCast_nonneg m.head
  head_step _ _ := Machine.head_step
  cells cell hcell := by
    have hget : m.tape.get? cell.1 = some cell.2 := Tape.mem_cells.1 hcell
    exact ⟨Int.natCast_nonneg cell.1, fun hblank => h.clean cell.1 (by rw [hget, hblank])⟩
  accepted_iff := h.accepted_iff
  rejected_iff := h.rejected_iff
  state_of_zero := h.located.start
  state_of_pos := h.located.node
  graph_eq := h.graph_eq
  history_le n hn := by
    rw [History.length_toList]
    exact h.fits n hn
  not_implicitAccept := Machine.not_implicitAccept h

/-- Whatever is done to a machine, with whatever table and capacity, it stays consistent. -/
theorem isConsistent_performAll (table : Table) (capacity : Option Nat)
    (operations : List Operation) :
    ((ofTable table capacity).performAll operations).IsConsistent :=
  (isKept_isSound.performAll (isSound_ofTable table capacity) operations).isConsistent

end Machine

end TapeMachine
