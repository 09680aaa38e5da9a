import Mathlib.Logic.Relation
import TapeMachine.Proofs.CompiledTable
import TapeMachine.Proofs.LetteredTape
import TapeMachine.Proofs.Simulation
import TapeMachine.Proofs.VerdictAgreement

/-!
# Rules that are never used

An evaluation starts in the first state and goes from state to state by the rules, until it enters
the accepting state. So it comes to live states only: those that rules lead to from the first state,
where the rules that leave the accepting state do not count. A rule for any other state can be left
out of the table.

What an evaluation fires is no part of its verdict. `Table.evaluationFrom` is the evaluator with a
log of its transitions; without the log it is `Table.evaluateFrom`.

## Main results

- `Table.IsCompiled.together_of_keepsLive`: in a live state, the rules that are left find the same
- `Table.IsCompiled.isLive_of_mem_fired`: what is fired is a rule for a live state
- `Graph.reachable_of_isLive`: live states are reachable in the graph
- `Table.evaluate_of_keepsLive`: verdicts, transitions and states of evaluations
-/

namespace TapeMachine

open Text (CodePoint Loose)

/-! ## Live states -/

namespace Table

/-- The states that rules lead to from the first state. No rule counts that leaves the accepting
state. -/
inductive IsLive (table : Table) : State → Prop
  | start : IsLive table startState
  | target {t : Transition} : IsLive table t.source → t.source ≠ acceptState →
      t ∈ table.transitions → IsLive table t.target

variable {table : Table}

/-- There are no live states but those that every closed set with the first state holds. -/
theorem IsLive.mem_of_closed {states : State → Prop} (hstart : states startState)
    (hclosed : ∀ t ∈ table.transitions, states t.source → t.source ≠ acceptState →
      states t.target) {q : State} (h : table.IsLive q) : states q := by
  induction h with
  | start => exact hstart
  | target _ hsource ht ih => exact hclosed _ ht ih hsource

/-- All rules for live states are kept, those for the accepting state aside. -/
def KeepsLive (table : Table) (kept : List Transition) : Prop :=
  ∀ t ∈ table.transitions, table.IsLive t.source → t.source ≠ acceptState → t ∈ kept

end Table

/-- An edge leads from one state to the other. -/
def Graph.Joins (graph : Graph) (q r : State) : Prop :=
  ∃ e ∈ graph.edges, e.source = q ∧ e.target = r

/-- Edges lead, one after the other, from the first state to a state. -/
def Graph.Reachable (graph : Graph) (q : State) : Prop :=
  Relation.ReflTransGen graph.Joins startState q

/-- Rules and edges are the same, so live states are reachable. -/
theorem Graph.reachable_of_isLive {table : Table} {q : State} (h : table.IsLive q) :
    (Graph.ofTable table).Reachable q := by
  induction h with
  | start => exact .refl
  | @target t _ _ ht ih => exact ih.tail ⟨t.edge, List.mem_map_of_mem ht, rfl, rfl⟩

/-! ## Rules that are left out -/

/-- The evaluation goes on in a live state, on a tape of single characters. -/
structure Configuration.IsLive (table : Table) (c : Configuration) : Prop where
  state : table.IsLive c.state
  runs : c.state ≠ acceptState
  lettered : c.tape.IsLettered

namespace Table.IsCompiled

variable {table : Table} (h : table.IsCompiled)

include h

/-- Some of the rules of a compiled table make a compiled table. -/
theorem ofList_of_sublist {kept : List Transition} (hkept : kept.Sublist table.transitions) :
    (Table.ofList kept).IsCompiled :=
  ⟨fun t ht => h.spelled t (hkept.subset ht), h.nodup.sublist (hkept.map _)⟩

/-- What applies in a live configuration is a rule for its state. -/
theorem source_of_lookup {c : Configuration} (hc : c.IsLive table) {t : Transition}
    (ht : table.lookup c.state (c.tape.read c.head) = .matched t) :
    t ∈ table.transitions ∧ t.source = c.state := by
  obtain ⟨x, hx⟩ := hc.lettered c.head
  rw [hx, h.lookup_eq_matched_iff] at ht
  exact ⟨ht.1, ht.2.1⟩

/-- A rule that applies in a live configuration leads to a live one, unless that accepts. -/
theorem isLive_next {c : Configuration} (hc : c.IsLive table) {t : Transition}
    (ht : table.lookup c.state (c.tape.read c.head) = .matched t)
    (htarget : t.target ≠ acceptState) (position : Nat) :
    Configuration.IsLive table ⟨c.tape.write c.head t.write, position, t.target⟩ := by
  obtain ⟨hmem, hsource⟩ := h.source_of_lookup hc ht
  obtain ⟨r, w, -, hw⟩ := h.exists_symbols hmem
  refine ⟨?_, htarget, ?_⟩
  · apply IsLive.target _ _ hmem
    · rw [hsource]
      exact hc.state
    · rw [hsource]
      exact hc.runs
  · rw [hw]
    exact hc.lettered.write c.head w

/-- In a live configuration the rules that are left find what all of them find. -/
theorem lookup_ofList {kept : List Transition} (hkept : kept.Sublist table.transitions)
    (hlive : table.KeepsLive kept) {c : Configuration} (hc : c.IsLive table) :
    (Table.ofList kept).lookup c.state (c.tape.read c.head) =
      table.lookup c.state (c.tape.read c.head) := by
  obtain ⟨x, hx⟩ := hc.lettered c.head
  rw [← Lookup.map_id (table.lookup _ _)]
  apply lookup_eq_map_of_matched_iff Iff.rfl
  intro t
  simp only [hx, h.lookup_eq_matched_iff, (h.ofList_of_sublist hkept).lookup_eq_matched_iff, id,
    exists_eq_right]
  -- a rule for a live state has not been left out
  constructor
  · rintro ⟨ht, hrule⟩
    exact ⟨hkept.subset ht, hrule⟩
  · rintro ⟨ht, hsource, hread⟩
    refine ⟨hlive t ht ?_ ?_, hsource, hread⟩
    · rw [hsource]
      exact hc.state
    · rw [hsource]
      exact hc.runs

/-- So they take an evaluation the same way, to configurations that are live again. -/
theorem together_of_keepsLive {kept : List Transition} (hkept : kept.Sublist table.transitions)
    (hlive : table.KeepsLive kept) {c : Configuration} (hc : c.IsLive table) :
    (table.outcome c).Together (fun c c' => c' = c ∧ c.IsLive table)
      ((Table.ofList kept).outcome c) := by
  apply together_of_lookup (f := id) _ rfl (fun _ => rfl) fun _ => Iff.rfl
  · intro t direction position ht _ htarget
    exact ⟨rfl, h.isLive_next hc ht htarget position⟩
  · rw [h.lookup_ofList hkept hlive hc, Lookup.map_id]

end Table.IsCompiled

theorem Configuration.isLive_start (table : Table) (input : Loose) :
    Configuration.IsLive table ⟨.ofInput input, 0, startState⟩ :=
  ⟨.start, (by decide : startState ≠ acceptState), Tape.isLettered_ofInput input⟩

/-! ## Evaluations with a log -/

/-- What an evaluation comes to, and the transitions that it fires, in order. -/
structure Evaluation where
  verdict : Except UnknownMove Status
  fired : List Transition

namespace Evaluation

/-- The evaluation with a transition fired in front of it. -/
def behind (t : Transition) (e : Evaluation) : Evaluation := { e with fired := t :: e.fired }

/-- The states that an evaluation comes to, in order. -/
def states (e : Evaluation) : List State := startState :: e.fired.map (·.target)

end Evaluation

namespace Table

/-- The evaluator with a log. -/
def evaluationFrom (table : Table) : (bound : Nat) → Configuration → Evaluation
  | 0, _ => ⟨.ok .rejected, []⟩
  | bound + 1, c =>
    match table.lookup c.state (c.tape.read c.head) with
    | .implicitAccept => ⟨.ok .accepted, []⟩
    | .implicitReject => ⟨.ok .rejected, []⟩
    | .matched t =>
      match t.direction? with
      | none => ⟨.error ⟨t.move⟩, []⟩
      | some direction =>
        match direction.from? c.head with
        | none => ⟨.ok .rejected, []⟩
        | some next =>
          if t.target = acceptState then .behind t ⟨.ok .accepted, []⟩
          else .behind t (evaluationFrom table bound ⟨c.tape.write c.head t.write, next, t.target⟩)

/-- The evaluation of an input, with a log. -/
def evaluation (table : Table) (input : Loose) (bound : Int) : Evaluation :=
  table.evaluationFrom bound.toNat ⟨.ofInput input, 0, startState⟩

variable {table : Table}

/-- The log does not change the verdict. -/
theorem verdict_evaluationFrom (n : Nat) (c : Configuration) :
    (table.evaluationFrom n c).verdict = table.evaluateFrom n c.tape c.head c.state := by
  induction n generalizing c with
  | zero => rfl
  | succ n ih =>
    unfold evaluationFrom evaluateFrom
    cases table.lookup c.state (c.tape.read c.head) with
    | implicitAccept => rfl
    | implicitReject => rfl
    | matched t =>
      dsimp only
      cases t.direction? with
      | none => rfl
      | some direction =>
        dsimp only
        cases direction.from? c.head with
        | none => rfl
        | some next =>
          dsimp only
          split
          · rfl
          · exact ih _

theorem verdict_evaluation (input : Loose) (bound : Int) :
    (table.evaluation input bound).verdict = table.evaluate input bound :=
  verdict_evaluationFrom _ _

/-- What is fired is the rule that applies, or is fired behind it. -/
theorem exists_of_mem_fired {n : Nat} {c : Configuration} {t : Transition}
    (ht : t ∈ (table.evaluationFrom (n + 1) c).fired) :
    ∃ u position, table.lookup c.state (c.tape.read c.head) = .matched u ∧
      (t = u ∨ u.target ≠ acceptState ∧
        t ∈ (table.evaluationFrom n ⟨c.tape.write c.head u.write, position, u.target⟩).fired) := by
  -- only where a rule applies and keeps the head on the tape is anything fired
  unfold evaluationFrom at ht
  cases hlookup : table.lookup c.state (c.tape.read c.head) with
  | implicitAccept => simp [hlookup] at ht
  | implicitReject => simp [hlookup] at ht
  | matched u =>
    cases hdirection : u.direction? with
    | none => simp [hlookup, hdirection] at ht
    | some direction =>
      cases hposition : direction.from? c.head with
      | none => simp [hlookup, hdirection, hposition] at ht
      | some position =>
        simp only [hlookup, hdirection, hposition] at ht
        refine ⟨u, position, rfl, ?_⟩
        split at ht
        · exact .inl (List.mem_singleton.1 ht)
        · rename_i htarget
          rcases List.mem_cons.1 ht with rfl | hrest
          · exact .inl rfl
          · exact .inr ⟨htarget, hrest⟩

/-- From a live configuration, rules for live states are fired and no others. -/
theorem IsCompiled.isLive_of_mem_fired (h : table.IsCompiled) {n : Nat} {c : Configuration}
    (hc : c.IsLive table) {t : Transition} (ht : t ∈ (table.evaluationFrom n c).fired) :
    t ∈ table.transitions ∧ table.IsLive t.source ∧ t.source ≠ acceptState := by
  -- on the iterations that are left, each of which starts from a live configuration
  induction n generalizing c with
  | zero => simp [evaluationFrom] at ht
  | succ n ih =>
    obtain ⟨u, position, hlookup, rfl | ⟨htarget, hrest⟩⟩ := exists_of_mem_fired ht
    · obtain ⟨hmem, hsource⟩ := h.source_of_lookup hc hlookup
      rw [hsource]
      exact ⟨hmem, hc.state, hc.runs⟩
    · exact ih (h.isLive_next hc hlookup htarget position) hrest

theorem IsCompiled.isLive_of_mem_states (h : table.IsCompiled) {input : Loose} {bound : Int}
    {q : State} (hq : q ∈ (table.evaluation input bound).states) : table.IsLive q := by
  rcases List.mem_cons.1 hq with rfl | hq
  · exact .start
  · obtain ⟨t, ht, rfl⟩ := List.mem_map.1 hq
    obtain ⟨hmem, hsource, haccept⟩ :=
      h.isLive_of_mem_fired (Configuration.isLive_start table input) ht
    exact .target hsource haccept hmem

/-- Rules for states that are not live, and rules that leave the accepting state, can be left out of
a compiled table: no verdict changes. None of them is ever fired, and an evaluation comes to live
states only, all of them reachable in the graph. -/
theorem evaluate_of_keepsLive {source : String} {program : Program}
    (hsource : Program.ofSource source = .ok program) (input : Loose) (bound : Int) :
    (∀ kept : List Transition, kept.Sublist program.table.transitions →
      program.table.KeepsLive kept → ∃ status, program.table.evaluate input bound = .ok status ∧
        (Table.ofList kept).evaluate input bound = .ok status) ∧
    (program.table.evaluation input bound).verdict = program.table.evaluate input bound ∧
    (∀ t ∈ (program.table.evaluation input bound).fired, t ∈ program.table.transitions ∧
      program.table.IsLive t.source ∧ t.source ≠ acceptState) ∧
    ∀ q ∈ (program.table.evaluation input bound).states,
      program.table.IsLive q ∧ program.graph.Reachable q := by
  have h := Program.isCompiled_of_ofSource hsource
  have hgraph : program.graph = Graph.ofTable program.table := by
    obtain ⟨rules, -, -, rfl⟩ := Program.ofSource_eq_ok hsource
    rfl
  have hstart := Configuration.isLive_start program.table input
  refine ⟨fun kept hkept hlive => ?_, verdict_evaluation input bound,
    fun t ht => h.isLive_of_mem_fired hstart ht, fun q hq => ?_⟩
  · obtain ⟨status, hstatus⟩ := Machine.exists_verdict h.hasDirections input bound
    refine ⟨status, hstatus, ?_⟩
    rw [← hstatus]
    symm
    -- both tables go through the same configurations, and all of them are live
    apply evaluate_eq_of_together (R := fun _ c c' => c' = c ∧ c.IsLive program.table) _
      ⟨rfl, hstart⟩
    rintro n c c' ⟨rfl, hc⟩
    exact h.together_of_keepsLive hkept hlive hc
  · have hlive := h.isLive_of_mem_states hq
    rw [hgraph]
    exact ⟨hlive, Graph.reachable_of_isLive hlive⟩

/-- A program with a rule that leaves the accepting state, and with one for a state that no rule
leads to. -/
def strayingSource : String := "q0 a/b,R q1\nha b/b,L q7\nq1 _/_,L ha\nq7 b/a,S q0"

/-- The program of that text. -/
def strayingProgram : Program :=
  let table := Program.tableOf [⟨"q0", "a", "b", "R", "q1", 0⟩, ⟨"ha", "b", "b", "L", "q7", 1⟩,
    ⟨"q1", "_", "_", "L", "ha", 2⟩, ⟨"q7", "b", "a", "S", "q0", 3⟩]
  ⟨table, Graph.ofTable table⟩

/-- Its rules for live states. -/
def strayingKept : List Transition :=
  [⟨"q0", "a", "b", "R", "q1", 0, "a/b,R"⟩, ⟨"q1", "_", "_", "L", "ha", 2, "_/_,L"⟩]

/-- The evaluation ends in the accepting state, on a symbol that the rule left out is for. -/
theorem evaluate_of_keepsLive_straying :
    Program.ofSource strayingSource = .ok strayingProgram ∧
      strayingKept.Sublist strayingProgram.table.transitions ∧
      strayingProgram.table.KeepsLive strayingKept ∧
      (∃ status, strayingProgram.table.evaluate "a" 9 = .ok status ∧
        (Table.ofList strayingKept).evaluate "a" 9 = .ok status) ∧
      (strayingProgram.table.evaluation "a" 9).states = ["q0", "q1", "ha"] ∧
      ∀ q ∈ (strayingProgram.table.evaluation "a" 9).states, strayingProgram.graph.Reachable q := by
  have hsource : Program.ofSource strayingSource = .ok strayingProgram := by decide +kernel
  have hkept : strayingKept.Sublist strayingProgram.table.transitions := by decide +kernel
  have hlive : strayingProgram.table.KeepsLive strayingKept := by
    intro t ht hstate
    have hclosed : ∀ t ∈ strayingProgram.table.transitions, t.source ∈ ["q0", "q1", "ha"] →
        t.source ≠ acceptState → t.target ∈ ["q0", "q1", "ha"] := by decide +kernel
    have hrest : ∀ t ∈ strayingProgram.table.transitions, t.source ∈ ["q0", "q1", "ha"] →
        t.source ≠ acceptState → t ∈ strayingKept := by decide +kernel
    exact hrest t ht (hstate.mem_of_closed (by decide) hclosed)
  obtain ⟨hverdict, -, -, hstates⟩ := evaluate_of_keepsLive hsource "a" 9
  exact ⟨hsource, hkept, hlive, hverdict strayingKept hkept hlive, by decide +kernel,
    fun q hq => (hstates q hq).2⟩

end Table

end TapeMachine
