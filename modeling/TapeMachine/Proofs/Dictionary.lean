import TapeMachine.Proofs.CompiledTable

/-!
# A compiled program is a dictionary of its rules

A table finds its transitions under texts that are put together from a state and a symbol. That
loses nothing: a compiled table finds just the transition for the state and the symbol, lists its
keys in the order of the rules, and numbers its transitions as they stand. The graph has an edge for
each of them, and a node for each state that they name.

## Main results

- `Table.IsCompiled.looksUpPairs`: look-ups by text are look-ups by state and symbol
- `Table.IsCompiled.keys_eq`, `Table.IsCompiled.entries_eq`: no transition hides another one
- `Graph.listsStates_ofTable`: the nodes of every table
- `Program.isDictionary_of_ofSource`: all of it, for every text that compiles
-/

namespace TapeMachine

open Text (CodePoint Loose)

/-- The transition is for a state and a symbol of one character. -/
def Transition.IsFor (t : Transition) (q : State) (x : CodePoint) : Prop :=
  t.source = q ∧ Loose.whole t.read = .ofPoints [x]

namespace Table

/-! ## Look-ups -/

/-- What is found for a state and a symbol is told by the transitions of the table. -/
structure LooksUpPairs (table : Table) : Prop where
  matched_iff : ∀ q x t, table.lookup q (.ofPoints [x]) = .matched t ↔
    t ∈ table.transitions ∧ t.IsFor q x
  unique : ∀ q x, ∀ t ∈ table.transitions, ∀ u ∈ table.transitions,
    t.IsFor q x → u.IsFor q x → t = u
  unmatched : ∀ q x, (∀ t ∈ table.transitions, ¬ t.IsFor q x) →
    table.lookup q (.ofPoints [x]) = if q = acceptState then .implicitAccept else .implicitReject

namespace IsCompiled

variable {table : Table} (h : table.IsCompiled)

include h

theorem looksUpPairs : table.LooksUpPairs where
  matched_iff q x t := h.lookup_eq_matched_iff
  unique q x t ht u hu hfor hfor' := by
    have hread : t.read = u.read := Loose.whole.inj (hfor.2.trans hfor'.2.symm)
    exact h.eq_of_source_of_read ht hu (hfor.1.trans hfor'.1.symm) hread
  unmatched q x hnone := by
    apply lookup_of_unmatched
    intro t hlookup
    obtain ⟨ht, hfor⟩ := h.lookup_eq_matched_iff.1 hlookup
    exact hnone t ht hfor

/-! ## Keys -/

/-- The keys are listed as the transitions are. -/
theorem keys_eq : table.keys = table.transitions.map Transition.key := distinct_of_nodup h.nodup

/-- Under each key stands the transition that it was made for. -/
theorem entries_eq : table.entries = table.transitions.map fun t => (t.key, t) := by
  rw [entries, h.keys_eq, List.filterMap_map]
  apply List.filterMap_eq_map_iff_forall_eq_some.2
  intro t ht
  simp [h.get?_eq_some_iff.2 ⟨ht, rfl⟩]

end IsCompiled

/-- The states that the transitions name, in the order in which they name them. -/
def mentioned (table : Table) : List State := table.transitions.flatMap fun t => [t.source, t.target]

end Table

/-! ## States -/

namespace Graph

/-- The nodes are the states that the transitions name, each once, in order of first appearance. -/
structure ListsStates (graph : Graph) (table : Table) : Prop where
  nodup : graph.nodes.Nodup
  mem_iff : ∀ q, q ∈ graph.nodes ↔ ∃ t ∈ table.transitions, q = t.source ∨ q = t.target
  ordered : graph.nodes.Pairwise fun q q' => table.mentioned.idxOf q < table.mentioned.idxOf q'

theorem listsStates_ofTable (table : Table) : (ofTable table).ListsStates table := by
  refine ⟨nodup_distinct _, fun q => ?_, pairwise_idxOf_distinct _⟩
  show q ∈ distinct table.mentioned ↔ _
  simp [mem_distinct, Table.mentioned]

end Graph

/-! ## Programs -/

namespace Program

/-- A program lists rules: in their order, and each under its number. -/
structure ListsRules (program : Program) (rules : List Rule) : Prop where
  size_eq : program.table.size = rules.length
  length_transitions : program.table.transitions.length = rules.length
  length_edges : program.graph.edges.length = rules.length
  keys_eq : program.table.keys = rules.map Rule.key
  numbered : ∀ (i : Nat) r, rules[i]? = some r → ∃ t e,
    program.table.transitions[i]? = some t ∧ program.graph.edges[i]? = some e ∧
      t.key = r.key ∧ t.index = i ∧ e.index = i ∧
      e.source = t.source ∧ e.target = t.target ∧ e.label = t.label

theorem listsRules_tableOf {rules : List Rule} (h : (tableOf rules).IsCompiled) :
    ListsRules ⟨tableOf rules, Graph.ofTable (tableOf rules)⟩ rules := by
  have hkeys : (tableOf rules).keys = rules.map Rule.key := h.keys_eq.trans (keys_tableOf rules)
  have htransitions : (tableOf rules).transitions =
      rules.zipIdx.map fun p => Transition.ofRule p.1 p.2 := rfl
  refine ⟨?_, ?_, ?_, hkeys, fun i r hr => ?_⟩
  · rw [Table.size, hkeys, List.length_map]
  · simp [htransitions]
  · simp [Graph.ofTable, htransitions]
  · refine ⟨.ofRule r i, (Transition.ofRule r i).edge, ?_, ?_, rfl, rfl, rfl, rfl, rfl, rfl⟩
    · simp [htransitions, hr]
    · simp [Graph.ofTable, htransitions, hr]

/-- A program is a dictionary of rules. -/
structure IsDictionary (program : Program) (rules : List Rule) : Prop where
  exact : program.table.LooksUpPairs
  entries_eq : program.table.entries = program.table.transitions.map fun t => (t.key, t)
  listed : program.ListsRules rules
  states : program.graph.ListsStates program.table

/-- The program of a text that compiles is a dictionary of the rules in the text. -/
theorem isDictionary_of_ofSource {source : String} {program : Program}
    (h : ofSource source = .ok program) :
    ∃ rules, readRules source = .ok rules ∧ program.IsDictionary rules := by
  have hcompiled := isCompiled_of_ofSource h
  obtain ⟨rules, hread, -, rfl⟩ := ofSource_eq_ok h
  exact ⟨rules, hread, hcompiled.looksUpPairs, hcompiled.entries_eq, listsRules_tableOf hcompiled,
    Graph.listsStates_ofTable (tableOf rules)⟩

/-- A program that reads and writes the sign that keys are put together with. -/
def colonSource : String := "q0 :/a,R q1\n\nq1 a/:,L q0 # back\nq0 a/a,S ha"

/-- The program of that text. -/
def colonProgram : Program :=
  let table := tableOf [⟨"q0", ":", "a", "R", "q1", 0⟩, ⟨"q1", "a", ":", "L", "q0", 2⟩,
    ⟨"q0", "a", "a", "S", "ha", 3⟩]
  ⟨table, Graph.ofTable table⟩

theorem isDictionary_of_ofSource_colons :
    ofSource colonSource = .ok colonProgram ∧
      (∃ rules, readRules colonSource = .ok rules ∧ colonProgram.IsDictionary rules) ∧
      colonProgram.table.keys = ["q0::", "q1:a", "q0:a"] ∧
      colonProgram.graph.nodes = ["q0", "q1", "ha"] := by
  have hsource : ofSource colonSource = .ok colonProgram := by decide +kernel
  exact ⟨hsource, isDictionary_of_ofSource hsource, by decide +kernel, by decide +kernel⟩

end Program

end TapeMachine
