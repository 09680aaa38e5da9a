import TapeMachine.Proofs.DigraphReading
import TapeMachine.Proofs.FlowchartReading
import TapeMachine.Proofs.ReachableState
import TapeMachine.Proofs.ReachableTape

/-!
# Diagrams show the next step

A diagram of a machine is drawn with its state, its status, and the number of the transition that is
looked up for the next step. The two kinds of diagrams find the arrow of that number in their own
ways, and a step makes a look-up of its own. They agree, since the edges of a compiled program are
numbered as they stand, and a cell shows one character, for which there is at most one transition.

## Main results

- `exists_place_of_mem`: the number of a transition is the place of its edge
- `step_of_activeTransition?`: a step fires the active transition or rejects at the left end
- `diagrams_show_next_step`: both diagrams show the state at hand and what happens next
-/

namespace TapeMachine

/-- A transition that was compiled is drawn with what it reads, writes, and where it goes. -/
theorem Table.IsCompiled.label_eq {table : Table} (h : table.IsCompiled) {t : Transition}
    (ht : t ∈ table.transitions) : t.label = t.read ++ "/" ++ t.write ++ "," ++ t.move := by
  obtain ⟨p, -, line, index, rfl⟩ := h.spelled t ht
  rfl

/-- The number of a transition is the place of its edge. -/
theorem Program.exists_place_of_mem {source : String} {program : Program}
    (hsource : ofSource source = .ok program) {t : Transition}
    (ht : t ∈ program.table.transitions) :
    ∃ k : Nat, program.graph.edges[k]? = some t.edge ∧ t.index = k := by
  obtain ⟨k, hk⟩ := List.mem_iff_getElem?.1 ht
  have hedge : program.graph.edges[k]? = some t.edge := by
    obtain ⟨rules, -, -, rfl⟩ := ofSource_eq_ok hsource
    simp only [Graph.ofTable, List.getElem?_map, hk, Option.map_some]
  exact ⟨k, hedge, (isCompiled_graph hsource).numbered k t.edge hedge⟩

namespace Machine

variable {m : Machine} {t : Transition}

/-! ## The next step -/

/-- A step fires a transition: what it writes is written, the head and the state change by it, and
the step counts. -/
def Fires (m : Machine) (t : Transition) : Prop :=
  ∃ (direction : Direction) (head : Nat), t.direction? = some direction ∧
    (head : Int) = m.head + direction.shift ∧ m.step = m.remember.fire t head

/-- A step rejects because the head would leave the tape. But for that the machine stays as it
is. -/
def RejectsAtLeftEnd (m : Machine) : Prop := m.step = m.remember.reject .leftEnd

/-- A step fires no transition: what a transition works on stays as it is. -/
def FiresNone (m : Machine) : Prop :=
  m.step.configuration = m.configuration ∧ m.step.stepCount = m.stepCount

theorem firesNone_of_activeTransition? (h : m.IsSound) (hactive : m.activeTransition? = none) :
    m.FiresNone := by
  cases hm : m.status.isTerminal with
  | true =>
    rw [FiresNone, step_of_terminal hm]
    exact ⟨rfl, rfl⟩
  | false =>
    have hunmatched : ∀ t, m.table.lookup m.state m.mark ≠ .matched t := by
      intro t hlookup
      rw [activeTransition?_eq_some.2 ⟨hm, hlookup⟩] at hactive
      contradiction
    -- a machine that goes on is not in the accepting state, so the step rejects
    have hrejects := Table.outcome_of_unmatched (c := m.configuration) hunmatched
      (h.state_ne_acceptState hm)
    rw [FiresNone, step_of_rejects hm hrejects]
    exact ⟨rfl, rfl⟩

theorem rejectsAtLeftEnd_of_from? {direction : Direction} (hactive : m.activeTransition? = some t)
    (hdirection : t.direction? = some direction) (hfrom : direction.from? m.head = none) :
    m.RejectsAtLeftEnd := by
  obtain ⟨hm, hlookup⟩ := activeTransition?_eq_some.1 hactive
  simp [RejectsAtLeftEnd, step, hm, hlookup, hdirection, hfrom]

theorem fires_of_from? {direction : Direction} {head : Nat} (hactive : m.activeTransition? = some t)
    (hdirection : t.direction? = some direction) (hfrom : direction.from? m.head = some head) :
    m.Fires t := by
  obtain ⟨hm, hlookup⟩ := activeTransition?_eq_some.1 hactive
  refine ⟨direction, head, hdirection, ?_, by simp [step, hm, hlookup, hdirection, hfrom]⟩
  rw [Direction.from?_eq] at hfrom
  split at hfrom
  · contradiction
  · rw [← Option.some.inj hfrom]
    omega

/-- A step fires the active transition, unless that would take the head off the tape. -/
theorem step_of_activeTransition? (hcompiled : m.table.IsCompiled)
    (hactive : m.activeTransition? = some t) :
    if m.head = 0 ∧ t.move = "L" then m.RejectsAtLeftEnd else m.Fires t := by
  have ht := (Table.lookup_matched (activeTransition?_eq_some.1 hactive).2).1
  obtain ⟨p, -, line, index, rfl⟩ := hcompiled.spelled t ht
  have hdirection : (Transition.ofRule (p.toRule line) index).direction? = some p.direction :=
    Direction.ofLetter?_letter p.direction
  have hmove : (Transition.ofRule (p.toRule line) index).move = "L" ↔ p.direction = .left := by
    show p.direction.letter = "L" ↔ p.direction = .left
    cases p.direction <;> decide
  simp only [hmove]
  split
  · rename_i hcrash
    exact rejectsAtLeftEnd_of_from? hactive hdirection (Direction.from?_of_crash hcrash.symm)
  · rename_i hcrash
    apply fires_of_from? hactive hdirection (Direction.from?_of_not_crash _)
    exact fun h => hcrash h.symm

/-! ## Diagrams -/

/-- The number of the transition that the next step would make. -/
def activeIndex? (m : Machine) : Option Int := m.activeTransition?.map (·.index)

/-- A diagram shows the state a machine is in, if it is a node, and what the next step does: no
arrow is thick and none is followed, or one arrow is thick and it is followed unless it leads off
the tape. -/
structure IsShownBy (m : Machine) (seen : Diagram) : Prop where
  filled : seen.filled =
    if m.state ∈ m.graph.nodes then [(m.state, Theme.ofStatus m.status)] else []
  idle : m.activeTransition? = none → seen.thick = [] ∧ m.FiresNone
  thick : ∀ t, m.activeTransition? = some t → ∃ k, seen.thick = [k] ∧
    seen.arrows[k]? = some ⟨m.state, t.target, t.read ++ "/" ++ t.write ++ "," ++ t.move⟩ ∧
    (t.read : Mark) = m.mark ∧
    if m.head = 0 ∧ t.move = "L" then m.RejectsAtLeftEnd else m.Fires t

section

variable {source : String} {program : Program} {table : Table} {capacity : Option Nat}
  (hsource : Program.ofSource source = .ok program) (hm : ReachableFrom table capacity m)
  (htable : m.table = program.table)

include hsource hm htable

/-- A machine draws the graph of its program. -/
theorem graph_eq_of_reachableFrom : m.graph = program.graph := by
  have hsound := isKept_isSound.reachableFrom (isSound_ofTable table capacity) hm
  obtain ⟨rules, -, -, rfl⟩ := Program.ofSource_eq_ok hsource
  rw [hsound.graph_eq, htable]

/-- What is to be seen of the graph of a machine shows the next step. -/
theorem isShownBy_diagram :
    m.IsShownBy (m.graph.diagram (some m.state) m.status m.activeIndex?) := by
  have hsound := isKept_isSound.reachableFrom (isSound_ofTable table capacity) hm
  have hgraph := graph_eq_of_reachableFrom hsource hm htable
  have hcompiled : m.table.IsCompiled := by
    rw [htable]
    exact Program.isCompiled_of_ofSource hsource
  have hg : m.graph.IsCompiled := by
    rw [hgraph]
    exact Program.isCompiled_graph hsource
  refine ⟨hg.filled_diagram m.state, fun hactive => ?_, fun t hactive => ?_⟩
  · refine ⟨?_, firesNone_of_activeTransition? hsound hactive⟩
    simp [activeIndex?, hactive]
  · have hlookup := (activeTransition?_eq_some.1 hactive).2
    have ht := (Table.lookup_matched hlookup).1
    -- the cell shows one character, so the look-up tells the state and what is read
    obtain ⟨x, hx⟩ := isLettered_of_reachableFrom hm hcompiled m.head
    have hmark : m.mark = .ofPoints [x] := hx
    rw [hmark] at hlookup
    obtain ⟨-, hstate, hread⟩ := hcompiled.lookup_eq_matched_iff.1 hlookup
    obtain ⟨k, hedge, hindex⟩ := Program.exists_place_of_mem hsource (htable ▸ ht)
    rw [← hgraph] at hedge
    have hlt : k < m.graph.edges.length := (List.getElem?_eq_some_iff.1 hedge).1
    refine ⟨k, ?_, ?_, by rw [hread, hmark], step_of_activeTransition? hcompiled hactive⟩
    · simp [activeIndex?, hactive, Graph.thick_diagram, hindex, hlt]
    · show (m.graph.edges.map Edge.arrow)[k]? = _
      rw [List.getElem?_map, hedge, ← hcompiled.label_eq ht, ← hstate]
      rfl

end

/-- Whatever was done to a machine with a compiled program, the two kinds of diagrams of its graph,
its state and its status show the same: the state at hand and what happens next. -/
theorem diagrams_show_next_step {source : String} {program : Program}
    (hsource : Program.ofSource source = .ok program) {table : Table} {capacity : Option Nat}
    {m : Machine} (hm : ReachableFrom table capacity m) (htable : m.table = program.table)
    {layout : Graph.Dot.Layout} (hlayout : layout.IsUnbroken) :
    ∃ seen : Diagram,
      Graph.Mermaid.diagram (m.graph.toMermaid (some m.state) m.status m.activeIndex?) = seen ∧
      Graph.Dot.diagram (m.graph.toDot layout (some m.state) m.status m.activeIndex?) = seen ∧
      m.IsShownBy seen := by
  have hg : m.graph.IsCompiled := by
    rw [graph_eq_of_reachableFrom hsource hm htable]
    exact Program.isCompiled_graph hsource
  exact ⟨_, Graph.Mermaid.diagram_toMermaid hg, Graph.Dot.diagram_toDot hg hlayout,
    isShownBy_diagram hsource hm htable⟩

/-- A program that writes a quote and then goes back from the blank behind it. -/
def quotingProgram : Program :=
  let table := Program.tableOf [⟨"q0", "a", "\"", "R", "q1", 0⟩, ⟨"q1", "_", "|", "L", "q1", 1⟩]
  ⟨table, Graph.ofTable table⟩

/-- A machine that is about to go back. -/
def quotingMachine : Machine := ((ofTable quotingProgram.table (some 1)).load "a").step

/-- The diagrams of that machine: the one thick arrow is that of the transition that is fired. -/
theorem diagrams_show_next_step_quoting :
    Program.ofSource "q0 a/\",R q1\nq1 _/|,L q1" = .ok quotingProgram ∧
      ReachableFrom quotingProgram.table (some 1) quotingMachine ∧
      quotingMachine.table = quotingProgram.table ∧
      ({} : Graph.Dot.Layout).IsUnbroken ∧
      ∃ seen : Diagram,
        Graph.Mermaid.diagram (quotingMachine.graph.toMermaid (some quotingMachine.state)
          quotingMachine.status quotingMachine.activeIndex?) = seen ∧
        Graph.Dot.diagram (quotingMachine.graph.toDot {} (some quotingMachine.state)
          quotingMachine.status quotingMachine.activeIndex?) = seen ∧
        ∃ k, seen.thick = [k] ∧ seen.arrows[k]? = some ⟨"q1", "q1", "_/|,L"⟩ ∧
          quotingMachine.Fires ⟨"q1", "_", "|", "L", "q1", 1, "_/|,L"⟩ := by
  have hsource : Program.ofSource "q0 a/\",R q1\nq1 _/|,L q1" = .ok quotingProgram := by
    decide +kernel
  have hm : ReachableFrom quotingProgram.table (some 1) quotingMachine :=
    .perform .step (.perform (.load "a") .fresh)
  have htable : quotingMachine.table = quotingProgram.table := by decide +kernel
  have hstate : quotingMachine.state = "q1" := by decide +kernel
  have hactive : quotingMachine.activeTransition? =
      some ⟨"q1", "_", "|", "L", "q1", 1, "_/|,L"⟩ := by
    decide +kernel
  obtain ⟨seen, hflowchart, hdigraph, hshown⟩ :=
    diagrams_show_next_step hsource hm htable Graph.Dot.isUnbroken_default
  obtain ⟨k, hthick, harrow, -, hstep⟩ := hshown.thick _ hactive
  rw [hstate] at harrow
  rw [if_neg (by decide +kernel)] at hstep
  exact ⟨hsource, hm, htable, Graph.Dot.isUnbroken_default, seen, hflowchart, hdigraph, k, hthick,
    harrow, hstep⟩

end Machine

end TapeMachine
