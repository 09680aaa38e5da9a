import Mathlib.Data.List.Nodup
import TapeMachine.Graph.Theme
import TapeMachine.Proofs.Dictionary

/-!
# Compiled graphs

The graph of a program that was compiled from a text is of a simple kind: its nodes are words, its
labels are two symbols and a direction, and its edges are numbered as they stand. So it is told by
what a diagram shows of it.

## Main results

- `Program.isCompiled_graph`: the graph of a compiled text is compiled
- `Graph.IsCompiled.eq_of_diagram`: compiled graphs that are drawn alike are equal
-/

namespace TapeMachine

open Rule (Word SymbolChar)

/-! ## Graphs of programs -/

/-- The label is made of two symbols and a direction. -/
def IsLabel (label : String) : Prop :=
  ∃ r w : Char, ∃ d : Direction, SymbolChar r ∧ SymbolChar w ∧
    label = .singleton r ++ "/" ++ .singleton w ++ "," ++ d.letter

/-- A label is on one line. -/
theorem IsLabel.newline_not_mem {label : String} (h : IsLabel label) : '\n' ∉ label.toList := by
  obtain ⟨r, w, d, hr, hw, rfl⟩ := h
  -- a symbol is no blank character, and a line feed is one
  have hsymbol : ∀ c, SymbolChar c → '\n' ≠ c := by
    rintro c hc rfl
    exact absurd hc.1 (by decide)
  cases d <;> simp [hsymbol r hr, hsymbol w hw, Direction.letter]

namespace Graph

/-- What a graph is that was compiled from a text. -/
structure IsCompiled (g : Graph) : Prop where
  word : ∀ s ∈ g.nodes, Word s.toList
  nodup : g.nodes.Nodup
  source_mem : ∀ e ∈ g.edges, e.source ∈ g.nodes
  target_mem : ∀ e ∈ g.edges, e.target ∈ g.nodes
  isLabel : ∀ e ∈ g.edges, IsLabel e.label
  numbered : ∀ (k : Nat) e, g.edges[k]? = some e → e.index = k

namespace IsCompiled

variable {g : Graph}

theorem word_source (h : g.IsCompiled) {e : Edge} (he : e ∈ g.edges) : Word e.source.toList :=
  h.word e.source (h.source_mem e he)

theorem word_target (h : g.IsCompiled) {e : Edge} (he : e ∈ g.edges) : Word e.target.toList :=
  h.word e.target (h.target_mem e he)

end IsCompiled

end Graph

namespace Program

/-- The edges of a program are numbered as they stand. -/
theorem index_of_getElem?_edges {rules : List Rule} {k : Nat} {e : Edge}
    (h : (Graph.ofTable (tableOf rules)).edges[k]? = some e) : e.index = k := by
  have hedges : (Graph.ofTable (tableOf rules)).edges =
      (rules.zipIdx.map fun p => Transition.ofRule p.1 p.2).map Transition.edge := rfl
  simp only [hedges, List.getElem?_map, List.getElem?_zipIdx, Option.map_map] at h
  obtain ⟨r, -, rfl⟩ := Option.map_eq_some_iff.1 h
  simp [Transition.edge, Transition.ofRule]

theorem isCompiled_graph {source : String} {p : Program} (h : ofSource source = .ok p) :
    p.graph.IsCompiled := by
  have hcompiled := isCompiled_of_ofSource h
  obtain ⟨rules, -, -, rfl⟩ := ofSource_eq_ok h
  have hstates := Graph.listsStates_ofTable (tableOf rules)
  have hedge : ∀ e ∈ (Graph.ofTable (tableOf rules)).edges,
      ∃ t ∈ (tableOf rules).transitions, t.edge = e := fun e he => List.mem_map.1 he
  refine ⟨fun s hs => ?_, hstates.nodup, fun e he => ?_, fun e he => ?_, fun e he => ?_,
    fun k e hk => index_of_getElem?_edges hk⟩
  · -- each name is the source or the target of a rule
    obtain ⟨t, ht, hname⟩ := (hstates.mem_iff s).1 hs
    obtain ⟨p, hp, line, index, rfl⟩ := hcompiled.spelled t ht
    cases hname with
    | inl hsource => simpa [hsource, Transition.ofRule, Rule.Parts.toRule] using hp.source
    | inr htarget => simpa [htarget, Transition.ofRule, Rule.Parts.toRule] using hp.target
  · obtain ⟨t, ht, rfl⟩ := hedge e he
    exact (hstates.mem_iff _).2 ⟨t, ht, .inl rfl⟩
  · obtain ⟨t, ht, rfl⟩ := hedge e he
    exact (hstates.mem_iff _).2 ⟨t, ht, .inr rfl⟩
  · obtain ⟨t, ht, rfl⟩ := hedge e he
    obtain ⟨p, hp, line, index, rfl⟩ := hcompiled.spelled t ht
    exact ⟨p.read, p.write, p.direction, hp.read, hp.write, rfl⟩

end Program

/-! ## What a diagram shows -/

/-- An arrow of a diagram. -/
structure Arrow where
  source : State
  target : State
  label : String
  deriving DecidableEq, Repr

/-- The arrow that an edge is drawn as. Its number is not drawn. -/
def Edge.arrow (e : Edge) : Arrow := ⟨e.source, e.target, e.label⟩

/-- What a diagram shows: the states and the arrows in order, the states that are filled with their
colours, and the places of the arrows that are drawn thick. -/
@[ext] structure Diagram where
  nodes : List State
  arrows : List Arrow
  filled : List (State × String)
  thick : List Nat
  deriving DecidableEq, Repr

namespace Graph

/-- What is to be seen of a graph: all of it, the current state filled in the colour of the status,
and the arrow of the active number thick. -/
def diagram (g : Graph) (current : Option State) (status : Status) (active : Option Int) :
    Diagram where
  nodes := g.nodes
  arrows := g.edges.map Edge.arrow
  filled := (g.nodes.filter fun s => some s = current).map fun s => (s, Theme.ofStatus status)
  thick := (List.range g.edges.length).filter fun k => some (k : Int) = active

variable {g g' : Graph} {current : Option State} {status : Status} {active : Option Int}

/-- Compiled graphs that are drawn alike are equal, since their edges are numbered alike. -/
theorem IsCompiled.eq_of_diagram (h : g.IsCompiled) (h' : g'.IsCompiled)
    (heq : g.diagram current status active = g'.diagram current status active) : g = g' := by
  have hnodes : g.nodes = g'.nodes := congrArg Diagram.nodes heq
  have harrows : g.edges.map Edge.arrow = g'.edges.map Edge.arrow := congrArg Diagram.arrows heq
  have hedges : g.edges = g'.edges := by
    -- an arrow does not show the number of its edge, but the place of the arrow is that number
    apply List.ext_getElem?
    intro k
    have hk := congrArg (·[k]?) harrows
    simp only [List.getElem?_map] at hk
    cases he : g.edges[k]? with
    | none =>
      rw [he, Option.map_none, eq_comm, Option.map_eq_none_iff] at hk
      exact hk.symm
    | some e =>
      cases he' : g'.edges[k]? with
      | none => simp [he, he'] at hk
      | some e' =>
        have hindex : e.index = e'.index := by rw [h.numbered k e he, h'.numbered k e' he']
        simp only [he, he', Option.map_some, Option.some.injEq, Edge.arrow, Arrow.mk.injEq] at hk
        obtain ⟨hsource, htarget, hlabel⟩ := hk
        cases e
        cases e'
        simp_all
  cases g
  cases g'
  simp_all

/-- At most one node is filled, since none is listed twice. -/
theorem IsCompiled.filled_diagram (h : g.IsCompiled) (s : State) :
    (g.diagram (some s) status active).filled =
      if s ∈ g.nodes then [(s, Theme.ofStatus status)] else [] := by
  simp only [diagram, Option.some.injEq, List.filter_eq, h.nodup.count]
  split <;> simp

/-- At most one arrow is thick. -/
theorem thick_diagram (i : Int) :
    (g.diagram current status (some i)).thick =
      if 0 ≤ i ∧ i < g.edges.length then [i.toNat] else [] := by
  have hplace : ∀ k ∈ List.range g.edges.length, decide (some (k : Int) = some i) =
      decide (0 ≤ i ∧ k = i.toNat) := by
    intro k _
    simp only [Option.some.injEq, decide_eq_decide]
    omega
  -- a negative number is no place
  by_cases hi : 0 ≤ i
  · simp only [diagram, List.filter_congr hplace, hi, true_and, List.filter_eq,
      List.nodup_range.count, List.mem_range]
    by_cases hlt : i < g.edges.length
    · simp [hlt, show i.toNat < g.edges.length by omega]
    · simp [hlt, show ¬ i.toNat < g.edges.length by omega]
  · simp only [diagram, List.filter_congr hplace, hi, false_and, decide_false, if_false]
    simp

@[simp] theorem filled_diagram_none : (g.diagram none status active).filled = [] := by
  simp [diagram]

@[simp] theorem thick_diagram_none : (g.diagram current status none).thick = [] := by
  simp [diagram]

end Graph

end TapeMachine
