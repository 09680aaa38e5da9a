import TapeMachine.Proofs.CompiledTable
import TapeMachine.Proofs.Configuration
import TapeMachine.Proofs.LetteredTape
import TapeMachine.Proofs.Textbook

/-!
# A machine refines the textbook machine

A machine keeps the cells that were written, finds transitions by text keys and counts its steps. On
a compiled program all this comes to the textbook machine with the rules of the program: after any
number of steps it stands where the textbook run stands.

## Main results

- `Textbook.isControlOf_control`: the textbook program is the set of the rules
- `Textbook.outcome_of_matches`: the outcome of a configuration is the textbook transition
- `Machine.iterate_step_refines`: the state of a machine after `n` steps, told by the textbook run
-/

namespace TapeMachine

open TapeMachine.Text (CodePoint Loose)

namespace Textbook

variable {table : Table}

/-! ## The rules of a table -/

theorem action?_ofRule (p : Rule.Parts) (line : Int) (index : Nat) :
    action? (Transition.ofRule (p.toRule line) index) =
      some ⟨p.write, p.direction, String.ofList p.target⟩ := by
  have hwrite : (Transition.ofRule (p.toRule line) index).write.toList = [p.write] :=
    String.toList_singleton p.write
  have hmove : (Transition.ofRule (p.toRule line) index).direction? = some p.direction :=
    Direction.ofLetter?_letter p.direction
  rw [action?, hwrite, hmove]
  rfl

/-- A transition of a compiled table is the rule for some action. -/
theorem exists_isRule (h : table.IsCompiled) {t : Transition} (ht : t ∈ table.transitions)
    {q : State} {x : CodePoint} (hq : t.source = q) (hx : Loose.whole t.read = .ofPoints [x]) :
    ∃ a, action? t = some a ∧ IsRule t q x a := by
  obtain ⟨p, -, line, index, rfl⟩ := h.spelled t ht
  exact ⟨_, action?_ofRule p line index, hq, hx, rfl, rfl, rfl⟩

/-- A transition is the rule for one action. -/
theorem isRule_inj {t : Transition} {q : State} {x : CodePoint} {a b : Action}
    (ha : IsRule t q x a) (hb : IsRule t q x b) : a = b := by
  obtain ⟨-, -, hawrite, hamove, hatarget⟩ := ha
  obtain ⟨-, -, hbwrite, hbmove, hbtarget⟩ := hb
  have hwrite : a.write = b.write := by
    have := congrArg String.toList (hawrite.symm.trans hbwrite)
    simpa using this
  have hdirection : a.direction = b.direction := by
    have := congrArg Direction.ofLetter? (hamove.symm.trans hbmove)
    simpa using this
  have htarget : a.target = b.target := hatarget.symm.trans hbtarget
  cases a
  cases b
  simp_all

/-- The rule for a state and a character is found. -/
theorem find?_eq_some_iff (h : table.IsCompiled) {q : State} {x : CodePoint} {t : Transition} :
    table.transitions.find? (fun t => t.source = q ∧ Loose.whole t.read = .ofPoints [x]) = some t ↔
      t ∈ table.transitions ∧ t.source = q ∧ Loose.whole t.read = .ofPoints [x] := by
  constructor
  · intro hfind
    exact ⟨List.mem_of_find?_eq_some hfind, by simpa using List.find?_some hfind⟩
  · rintro ⟨ht, hq, hx⟩
    obtain ⟨u, hfind⟩ := Option.isSome_iff_exists.1 (List.find?_isSome
      (p := fun t => decide (t.source = q ∧ Loose.whole t.read = .ofPoints [x])).2
      ⟨t, ht, decide_eq_true ⟨hq, hx⟩⟩)
    have hu := List.find?_some hfind
    simp only [decide_eq_true_eq] at hu
    -- the first transition for a state and a character is the only one
    rw [hfind, h.eq_of_source_of_read (List.mem_of_find?_eq_some hfind) ht (hu.1.trans hq.symm)
      (Loose.whole.inj (hu.2.trans hx.symm))]

/-- The transition function of a compiled table is the set of its rules. -/
theorem isControlOf_control (h : table.IsCompiled) : IsControlOf (control table) table := by
  intro q x a
  constructor
  · intro ha
    obtain ⟨t, hfind, haction⟩ := Option.bind_eq_some_iff.1 ha
    obtain ⟨ht, hq, hx⟩ := (find?_eq_some_iff h).1 hfind
    obtain ⟨b, hb, hrule⟩ := exists_isRule h ht hq hx
    obtain rfl := Option.some.inj (haction.symm.trans hb)
    exact ⟨t, ht, hrule⟩
  · rintro ⟨t, ht, hrule⟩
    obtain ⟨b, hb, hrule'⟩ := exists_isRule h ht hrule.1 hrule.2.1
    rw [control, (find?_eq_some_iff h).2 ⟨ht, hrule.1, hrule.2.1⟩, isRule_inj hrule hrule']
    exact hb

/-! ## One transition -/

/-- A configuration and one of the textbook machine show the same. -/
structure Matches (c : Configuration) (d : Description) : Prop where
  state : c.state = d.state
  head : c.head = d.head
  cells : ∀ i, c.tape.read i = .ofPoints [d.cells i]

theorem matches_start (input : Loose) : Matches ⟨.ofInput input, 0, startState⟩ (start input) :=
  ⟨rfl, rfl, Tape.read_ofInput input⟩

/-- What is written shows under the head, and nowhere else. -/
theorem Matches.act {c : Configuration} {d : Description} {a : Action} {w : String} {q : State}
    (hm : Matches c d) (hwrite : w = String.singleton a.write) (htarget : q = a.target) :
    Matches ⟨c.tape.write d.head w, ((d.head : Int) + a.direction.shift).toNat, q⟩ (d.act a) where
  state := htarget
  head := rfl
  cells i := by
    show (c.tape.write d.head w).read i =
      .ofPoints [Function.update d.cells d.head (.char a.write) i]
    rw [Tape.read_write, Function.update_apply, hm.cells, hwrite, ← Loose.ofPoints_char]
    by_cases hi : d.head = i
    · rw [if_pos hi, if_pos hi.symm]
    · rw [if_neg hi, if_neg (Ne.symm hi)]

/-- What a machine makes of a configuration is what the textbook machine makes of it. -/
theorem outcome_of_matches (h : table.IsCompiled) {c : Configuration} {d : Description}
    (hm : Matches c d) (hstate : d.state ≠ acceptState) :
    (∃ next d', table.outcome c = .fires next ∧ next? (control table) d = some d' ∧
      Matches next d') ∨
    (∃ why, table.outcome c = .rejects why ∧
      (Stuck (control table) d ∨ Crashes (control table) d)) := by
  have hmark : c.tape.read c.head = .ofPoints [d.symbol] := by rw [hm.cells, hm.head]; rfl
  have hδ := isControlOf_control h
  cases ha : control table d.state d.symbol with
  | none =>
    right
    refine ⟨_, Table.outcome_of_unmatched (fun t hlookup => ?_) (hm.state ▸ hstate),
      .inl ⟨hstate, ha⟩⟩
    -- a transition that applies would be an action of the textbook machine
    rw [hmark, h.lookup_eq_matched_iff] at hlookup
    obtain ⟨ht, hq, hx⟩ := hlookup
    obtain ⟨a, -, hrule⟩ := exists_isRule h ht (hq.trans hm.state) hx
    rw [(hδ _ _ _).2 ⟨t, ht, hrule⟩] at ha
    contradiction
  | some a =>
    obtain ⟨t, ht, hq, hx, hwrite, hmove, htarget⟩ := (hδ _ _ _).1 ha
    have hlookup : table.lookup c.state (c.tape.read c.head) = .matched t := by
      rw [hmark, h.lookup_eq_matched_iff]
      exact ⟨ht, hq.trans hm.state.symm, hx⟩
    have hdirection : t.direction? = some a.direction := by
      rw [Transition.direction?, hmove, Direction.ofLetter?_letter]
    have houtcome := Table.outcome_of_matched hlookup hdirection
    by_cases hcrash : a.direction = .left ∧ d.head = 0
    · right
      rw [hm.head, Direction.from?_of_crash hcrash] at houtcome
      exact ⟨_, houtcome, .inr ⟨hstate, a, ha, hcrash⟩⟩
    · left
      rw [hm.head, Direction.from?_of_not_crash hcrash] at houtcome
      refine ⟨_, d.act a, houtcome, ?_, hm.act hwrite htarget⟩
      rw [next?, if_neg hstate, ha]
      exact if_neg hcrash

end Textbook

namespace Machine

open Textbook (Control Description Matches Stuck Crashes control start after next?)

/-! ## Many steps -/

/-- The machine stands where the run of the textbook machine stands, `n` steps after the input was
    loaded: it still runs, or has halted where that run has stopped. -/
structure Follows (δ : Control) (d : Description) (n : Nat) (m : Machine) : Prop where
  matched : Matches m.configuration (after δ d m.stepCount)
  le : m.stepCount ≤ n
  fired : ∀ j < m.stepCount, next? δ (after δ d j) ≠ none
  ending :
    (m.status = .idle ∧ m.stepCount = n ∧ (after δ d m.stepCount).state ≠ acceptState) ∨
    (m.status = .accepted ∧ (after δ d m.stepCount).state = acceptState) ∨
    (m.status = .rejected ∧ m.stepCount < n ∧
      (Stuck δ (after δ d m.stepCount) ∨ Crashes δ (after δ d m.stepCount)))

theorem follows_load (δ : Control) (m : Machine) (input : Loose) :
    Follows δ (start input) 0 (m.load input) where
  matched := Textbook.matches_start input
  le := Nat.le_refl 0
  fired j hj := absurd hj (Nat.not_lt_zero j)
  ending := .inl ⟨rfl, rfl, (by decide : startState ≠ acceptState)⟩

/-- A transition of the machine is the next one of the textbook run. -/
theorem Follows.moveTo {δ : Control} {d d' : Description} {next : Configuration} {n : Nat}
    {m : Machine} (h : Follows δ d n m) (hidle : m.status = .idle) (hcount : m.stepCount = n)
    (hnext : next? δ (after δ d m.stepCount) = some d') (hmatches : Matches next d') :
    Follows δ d (n + 1) (m.remember.moveTo next) := by
  have hsucc := Textbook.after_succ hnext
  refine ⟨?_, Nat.succ_le_succ h.le, fun j hj => ?_, ?_⟩
  · show Matches next (after _ d (m.stepCount + 1))
    rwa [hsucc]
  · -- the last transition is the one that was made now
    rcases Nat.lt_succ_iff_lt_or_eq.1 hj with hj | rfl
    · exact h.fired j hj
    · show next? _ (after _ d m.stepCount) ≠ none
      rw [hnext]
      exact Option.some_ne_none d'
  · by_cases haccept : d'.state = acceptState
    · refine .inr (.inl ⟨if_pos (hmatches.state.trans haccept), ?_⟩)
      show (after _ d (m.stepCount + 1)).state = acceptState
      rwa [hsucc]
    · refine .inl ⟨(if_neg fun hc => haccept (hmatches.state.symm.trans hc)).trans hidle,
        congrArg (· + 1) hcount, ?_⟩
      show (after _ d (m.stepCount + 1)).state ≠ acceptState
      rwa [hsucc]

/-- One more step of the machine is one more transition of the textbook machine, unless one of them
    has stopped; then so has the other. -/
theorem Follows.step {d : Description} {n : Nat} {m : Machine} (hcompiled : m.table.IsCompiled)
    (h : Follows (control m.table) d n m) : Follows (control m.table) d (n + 1) m.step := by
  rcases h.ending with ⟨hidle, hcount, hstate⟩ | ⟨haccepted, hstate⟩ | ⟨hrejected, hlt, hstop⟩
  · have hm : m.status.isTerminal = false := by rw [hidle]; rfl
    rcases Textbook.outcome_of_matches hcompiled h.matched hstate with
      ⟨next, d', houtcome, hnext, hmatches⟩ | ⟨why, houtcome, hstop⟩
    · rw [step_of_fires hm houtcome]
      exact h.moveTo hidle hcount hnext hmatches
    · -- the machine rejects where the textbook run has stopped
      rw [step_of_rejects hm houtcome]
      exact ⟨h.matched, Nat.le_succ_of_le h.le, h.fired,
        .inr (.inr ⟨rfl, Nat.lt_succ_of_le h.le, hstop⟩)⟩
  -- a machine that has halted is not changed by a step
  · rw [step_of_terminal (by rw [haccepted]; rfl)]
    exact ⟨h.matched, Nat.le_succ_of_le h.le, h.fired, .inr (.inl ⟨haccepted, hstate⟩)⟩
  · rw [step_of_terminal (by rw [hrejected]; rfl)]
    exact ⟨h.matched, Nat.le_succ_of_le h.le, h.fired,
      .inr (.inr ⟨hrejected, Nat.lt_succ_of_lt hlt, hstop⟩)⟩

theorem follows_iterate {m : Machine} (hcompiled : m.table.IsCompiled) (input : Loose) (n : Nat) :
    Follows (control m.table) (start input) n (step^[n] (m.load input)) := by
  induction n with
  | zero => exact follows_load _ m input
  | succ n ih =>
    rw [Function.iterate_succ_apply']
    -- steps keep the table, so the transition function is the same all the time
    have htable : (step^[n] (m.load input)).table = m.table := table_iterate_step _ n
    rw [← htable] at ih ⊢
    exact ih.step (by rwa [htable])

variable {δ : Control} {d : Description} {n : Nat} {m : Machine}

/-- A run that has stopped where a machine stands does not come to any other configuration. -/
theorem Follows.after_eq (h : Follows δ d n m) (hstop : next? δ (after δ d m.stepCount) = none)
    {k : Nat} (hk : next? δ (after δ d k) = none) : after δ d k = after δ d m.stepCount := by
  by_cases hlt : k < m.stepCount
  · exact absurd hk (h.fired k hlt)
  · exact Textbook.after_of_stopped hstop (Nat.le_of_not_lt hlt)

/-- The step count is the number of transitions of the textbook run, cut off at the steps asked. -/
theorem Follows.stepCount_eq (h : Follows δ d n m) :
    (m.stepCount : ℕ∞) = min (n : ℕ∞) (Textbook.length δ d) := by
  have hstopped : next? δ (after δ d m.stepCount) = none →
      (m.stepCount : ℕ∞) = min (n : ℕ∞) (Textbook.length δ d) := by
    intro hstop
    rw [Textbook.length_eq h.fired hstop, min_eq_right (by exact_mod_cast h.le)]
  rcases h.ending with ⟨-, hcount, -⟩ | ⟨-, hstate⟩ | ⟨-, -, hstop⟩
  -- a machine that still runs has made all the steps, and the textbook run is at least as long
  · have hle := Textbook.le_length h.fired
    rw [hcount] at hle ⊢
    exact (min_eq_left hle).symm
  · exact hstopped (Textbook.next?_of_accepted hstate)
  · exact hstopped (hstop.elim Textbook.next?_of_stuck Textbook.next?_of_crashes)

/-- A machine has accepted if the textbook run has entered the accepting state in time. -/
theorem Follows.accepted_iff (h : Follows δ d n m) :
    m.status = .accepted ↔ ∃ k ≤ n, (after δ d k).state = acceptState := by
  constructor
  · intro haccepted
    rcases h.ending with ⟨hidle, -, -⟩ | ⟨-, hstate⟩ | ⟨hrejected, -, -⟩
    · rw [haccepted] at hidle; contradiction
    · exact ⟨m.stepCount, h.le, hstate⟩
    · rw [haccepted] at hrejected; contradiction
  · rintro ⟨k, hk, hstate⟩
    have hstopped := Textbook.next?_of_accepted (δ := δ) hstate
    rcases h.ending with ⟨-, hcount, hne⟩ | ⟨haccepted, -⟩ | ⟨-, -, hstop⟩
    · -- a machine that still runs has fired all transitions up to `n`
      rcases Nat.lt_or_eq_of_le hk with hlt | rfl
      · exact absurd hstopped (h.fired k (hcount ▸ hlt))
      · exact absurd hstate (hcount ▸ hne)
    · exact haccepted
    · have hnext := hstop.elim Textbook.next?_of_stuck Textbook.next?_of_crashes
      rw [h.after_eq hnext hstopped] at hstate
      exact absurd hstate (hstop.elim And.left And.left)

/-- A machine has rejected if the textbook run has stopped without accepting, and one more step was
    asked for. -/
theorem Follows.rejected_iff (h : Follows δ d n m) :
    m.status = .rejected ↔
      (∃ k, Stuck δ (after δ d k) ∨ Crashes δ (after δ d k)) ∧ m.stepCount < n := by
  constructor
  · intro hrejected
    rcases h.ending with ⟨hidle, -, -⟩ | ⟨haccepted, -⟩ | ⟨-, hlt, hstop⟩
    · rw [hrejected] at hidle; contradiction
    · rw [hrejected] at haccepted; contradiction
    · exact ⟨⟨m.stepCount, hstop⟩, hlt⟩
  · rintro ⟨⟨k, hstop⟩, hlt⟩
    rcases h.ending with ⟨-, hcount, -⟩ | ⟨-, hstate⟩ | ⟨hrejected, -, -⟩
    · exact absurd hcount (Nat.ne_of_lt hlt)
    · have hnext := hstop.elim Textbook.next?_of_stuck Textbook.next?_of_crashes
      have hstopped := Textbook.next?_of_accepted (δ := δ) hstate
      rw [h.after_eq hstopped hnext] at hstop
      exact absurd hstate (hstop.elim And.left And.left)
    · exact hrejected

theorem Follows.idle_iff (h : Follows δ d n m) :
    m.status = .idle ↔ m.status ≠ .accepted ∧ m.status ≠ .rejected := by
  rcases h.ending with ⟨hs, -⟩ | ⟨hs, -⟩ | ⟨hs, -⟩ <;> simp [hs]

/-! ## Refinement -/

/-- What a machine shows after `n` steps is told by the textbook run from a configuration. -/
structure Refines (δ : Control) (d : Description) (n : Nat) (m : Machine) : Prop where
  stepCount : (m.stepCount : ℕ∞) = min (n : ℕ∞) (Textbook.length δ d)
  state : m.state = (after δ d m.stepCount).state
  head : m.head = (after δ d m.stepCount).head
  cells : ∀ i, m.tape.read i = .ofPoints [(after δ d m.stepCount).cells i]
  /-- The run has entered the accepting state in time. -/
  accepted_iff : m.status = .accepted ↔ ∃ k ≤ n, (after δ d k).state = acceptState
  /-- The run is stuck or has crashed, and one step more was asked for. -/
  rejected_iff : m.status = .rejected ↔
    (∃ k, Stuck δ (after δ d k) ∨ Crashes δ (after δ d k)) ∧ m.stepCount < n
  idle_iff : m.status = .idle ↔ ¬ (∃ k ≤ n, (after δ d k).state = acceptState) ∧
    ¬ ((∃ k, Stuck δ (after δ d k) ∨ Crashes δ (after δ d k)) ∧ m.stepCount < n)

theorem Follows.refines (h : Follows δ d n m) : Refines δ d n m where
  stepCount := h.stepCount_eq
  state := h.matched.state
  head := h.matched.head
  cells := h.matched.cells
  accepted_iff := h.accepted_iff
  rejected_iff := h.rejected_iff
  idle_iff := by rw [h.idle_iff, Ne, Ne, h.accepted_iff, h.rejected_iff]

/-- A machine with a compiled program refines the textbook machine whose transition function is the
    set of the rules: load any input and make any number of steps. -/
theorem iterate_step_refines {source : String} {program : Program}
    (hsource : Program.ofSource source = .ok program) (m : Machine)
    (htable : m.table = program.table) (input : Loose) (n : Nat) :
    Textbook.IsControlOf (control program.table) program.table ∧
      Refines (control program.table) (start input) n (step^[n] (m.load input)) := by
  have hcompiled := Program.isCompiled_of_ofSource hsource
  rw [← htable] at hcompiled ⊢
  exact ⟨Textbook.isControlOf_control hcompiled, (follows_iterate hcompiled input n).refines⟩

/-- A program that erases a cell, writes another one, and leaves the tape. -/
def erasingSource : String := "q0 a/_,R q1\n# back\nq1 _/a,L q0\nq0 _/b,L q0"

/-- The program of that text. -/
def erasingProgram : Program :=
  let table := Program.tableOf [⟨"q0", "a", "_", "R", "q1", 0⟩, ⟨"q1", "_", "a", "L", "q0", 2⟩,
    ⟨"q0", "_", "b", "L", "q0", 3⟩]
  ⟨table, Graph.ofTable table⟩

/-- The refinement where the third step leaves the tape. -/
theorem iterate_step_refines_erasing :
    Program.ofSource erasingSource = .ok erasingProgram ∧
      (ofTable erasingProgram.table (some 1)).table = erasingProgram.table ∧
      Textbook.IsControlOf (control erasingProgram.table) erasingProgram.table ∧
      Refines (control erasingProgram.table) (start "a") 3
        (step^[3] ((ofTable erasingProgram.table (some 1)).load "a")) := by
  have hsource : Program.ofSource erasingSource = .ok erasingProgram := by decide +kernel
  exact ⟨hsource, rfl, iterate_step_refines hsource _ rfl "a" 3⟩

end Machine

end TapeMachine
