import TapeMachine.Proofs.CompiledTable
import TapeMachine.Proofs.LetteredTape
import TapeMachine.Proofs.Standing

/-!
# Runs further to the right

Where a run starts on the tape makes no difference as long as it does not come to the left end. With
blanks in front of its input and the head behind them, a machine makes the same steps on cells that
lie further to the right; the blanks are never read, since the other run would have crashed there.

## Main results

- `Configuration.Shifted.outcome_cases`: but for a crash, the outcomes are the same
- `Standing.Shifted.step`, `Machine.shifted_iterate`: so a step keeps the shift, and so does a run
- `Machine.shifted_iterate_load`: behind blanks, an input is run on as it is without them
-/

namespace TapeMachine

open Text (CodePoint Loose)

/-! ## One step -/

/-- The second configuration is the first one, so many cells further to the right, with blanks in
front of it. -/
structure Configuration.Shifted (d : Nat) (c c' : Configuration) : Prop where
  state : c'.state = c.state
  head : c'.head = c.head + d
  cells : ∀ i, c'.tape.read (i + d) = c.tape.read i
  blanks : ∀ i < d, c'.tape.read i = blank

namespace Configuration.Shifted

variable {table : Table} {d : Nat} {c c' : Configuration}

theorem write (h : Shifted d c c') (s : Mark) {position : Nat} {q : State} :
    Shifted d ⟨c.tape.write c.head s, position, q⟩ ⟨c'.tape.write c'.head s, position + d, q⟩ := by
  refine ⟨rfl, rfl, fun i => ?_, fun i hi => ?_⟩
  · rw [Tape.read_write, Tape.read_write, h.cells, h.head]
    simp only [Nat.add_right_cancel_iff]
  · have hne : c'.head ≠ i := by
      rw [h.head]
      omega
    rw [Tape.read_write, if_neg hne, h.blanks i hi]

/-- Outcomes lead both on, or are the same; the shift shows in nothing but a crash. -/
theorem outcome_cases (h : Shifted d c c') (hcrash : table.outcome c ≠ .rejects .leftEnd) :
    (∃ next next', table.outcome c = .fires next ∧ table.outcome c' = .fires next' ∧
      Shifted d next next') ∨
    ((∀ next, table.outcome c ≠ .fires next) ∧ table.outcome c' = table.outcome c) := by
  have hmark : c'.tape.read c'.head = c.tape.read c.head := by rw [h.head, h.cells]
  -- both are in one state on one mark, so one transition applies to both, or none
  by_cases hmatched : ∃ t, table.lookup c.state (c.tape.read c.head) = .matched t
  · obtain ⟨t, ht⟩ := hmatched
    have ht' : table.lookup c'.state (c'.tape.read c'.head) = .matched t := by
      rw [h.state, hmark, ht]
    cases hdirection : t.direction? with
    | none =>
      right
      simp [Table.outcome, ht, ht', hdirection]
    | some direction =>
      have houtcome := Table.outcome_of_matched ht hdirection
      have houtcome' := Table.outcome_of_matched ht' hdirection
      cases hposition : direction.from? c.head with
      | none =>
        rw [hposition] at houtcome
        exact absurd houtcome hcrash
      | some position =>
        have hposition' := Direction.from?_add hposition d
        rw [← h.head] at hposition'
        rw [hposition] at houtcome
        rw [hposition'] at houtcome'
        exact .inl ⟨_, _, houtcome, houtcome', h.write t.write⟩
  · have hnone := not_exists.1 hmatched
    have hlookup := Table.lookup_of_unmatched hnone
    right
    unfold Table.outcome
    rw [h.state, hmark, hlookup]
    by_cases haccept : c.state = acceptState
    · simp [haccept]
    · simp [haccept]

end Configuration.Shifted

/-- The standings are the same, but for a shift of the configuration. -/
structure Standing.Shifted (d : Nat) (s s' : Standing) : Prop where
  configuration : s.configuration.Shifted d s'.configuration
  headAsTruth : s'.headAsTruth = s.headAsTruth
  stepCount : s'.stepCount = s.stepCount
  status : s'.status = s.status
  lastError : s'.lastError = s.lastError

/-- A step that does not crash keeps the shift. -/
theorem Standing.Shifted.step {table : Table} {d : Nat} {s s' : Standing} (h : s.Shifted d s')
    (hcrash : s.status.isTerminal = false → table.outcome s.configuration ≠ .rejects .leftEnd) :
    (s.step table).Shifted d (s'.step table) := by
  cases hs : s.status.isTerminal with
  | true =>
    rw [step_of_terminal table hs, step_of_terminal table (by rwa [h.status])]
    exact h
  | false =>
    rw [step_of_not_terminal table hs, step_of_not_terminal table (by rwa [h.status])]
    -- both fire, or both end in the same way
    rcases h.configuration.outcome_cases (hcrash hs) with
      ⟨next, next', houtcome, houtcome', hnext⟩ | ⟨hnone, houtcome⟩
    · rw [houtcome, houtcome']
      refine ⟨hnext, rfl, congrArg (· + 1) h.stepCount, ?_, h.lastError⟩
      simp only [after, hnext.state, h.status]
    · rw [houtcome]
      cases ho : table.outcome s.configuration with
      | accepts => exact ⟨h.configuration, h.headAsTruth, h.stepCount, rfl, h.lastError⟩
      | rejects why => exact ⟨h.configuration, h.headAsTruth, h.stepCount, rfl, rfl⟩
      | faults move => exact h
      | fires next => exact absurd ho (hnone next)

/-! ## Runs -/

namespace Machine

/-- The next step takes the head past the left end. -/
def CrashesNext (m : Machine) : Prop := m.halted = false ∧ m.step.lastError = some .leftEnd

instance (m : Machine) : Decidable m.CrashesNext := inferInstanceAs (Decidable (_ ∧ _))

variable {m u : Machine} {d : Nat}

/-- Machines with one table keep a shift as long as the one to the left does not crash. -/
theorem shifted_iterate (htable : u.table = m.table) (h : m.standing.Shifted d u.standing) {n : Nat}
    (hcrash : ∀ k < n, ¬ (step^[k] m).CrashesNext) :
    (step^[n] m).standing.Shifted d (step^[n] u).standing := by
  induction n with
  | zero => exact h
  | succ n ih =>
    have hn := ih fun k hk => hcrash k (by omega)
    rw [Function.iterate_succ_apply', Function.iterate_succ_apply', standing_step, standing_step,
      table_iterate_step, table_iterate_step, htable]
    apply hn.step
    intro hopen hrejects
    -- the step of the machine to the left would reject, and say why
    have hstep : (step^[n] m).step = (step^[n] m).remember.reject .leftEnd :=
      step_of_rejects hopen (by rwa [table_iterate_step])
    apply hcrash n (by omega)
    refine ⟨hopen, ?_⟩
    rw [hstep]
    rfl

/-- So many blanks. -/
def blanks (d : Nat) : String := .ofList (List.replicate d blankChar)

theorem points_blanks_append (d : Nat) (input : Loose) :
    (Loose.whole (blanks d) ++ input).points =
      List.replicate d (.char blankChar) ++ input.points := by
  have hblanks : (Loose.whole (blanks d)).points = List.replicate d (.char blankChar) := by
    simp [Loose.points, blanks]
  rw [Loose.points_append, hblanks]

theorem inputCell_blanks_append_add (d : Nat) (input : Loose) (i : Nat) :
    Tape.inputCell (Loose.whole (blanks d) ++ input) (i + d) = Tape.inputCell input i := by
  rw [Tape.inputCell, points_blanks_append, List.getElem?_append_right (by simp),
    List.length_replicate, Nat.add_sub_cancel]
  rfl

theorem inputCell_blanks_append_of_lt (input : Loose) {i : Nat} (hi : i < d) :
    Tape.inputCell (Loose.whole (blanks d) ++ input) i = .char blankChar := by
  rw [Tape.inputCell, points_blanks_append, List.getElem?_append_left (by simpa using hi),
    List.getElem?_replicate, if_pos hi]
  rfl

/-- Behind blanks an input stands further to the right, and so does a head that is put there. -/
theorem shifted_setHead {m u placed : Machine} {input : Loose} {d : Nat}
    (h : (u.load (Loose.whole (blanks d) ++ input)).setHead d = .ok placed) :
    placed.table = u.table ∧ (m.load input).standing.Shifted d placed.standing := by
  obtain ⟨-, rfl⟩ := setHead_eq_ok h
  refine ⟨rfl, ⟨rfl, ?_, fun i => ?_, fun i hi => ?_⟩, rfl, rfl, rfl, rfl⟩
  · show ((d : Int)).toNat = 0 + d
    omega
  · show (Tape.ofInput _).read (i + d) = (Tape.ofInput input).read i
    rw [Tape.read_ofInput, Tape.read_ofInput, inputCell_blanks_append_add]
  · show (Tape.ofInput _).read i = blank
    rw [Tape.read_ofInput, inputCell_blanks_append_of_lt input hi, Tape.blank_eq_ofPoints]

/-- Of two machines with one table, one loads an input, and the other one loads it behind blanks and
has its head put behind them. As long as the first one does not crash, the second one stands where
it stands, so many cells further to the right and with blanks in front. -/
theorem shifted_iterate_load {m u : Machine} (htable : u.table = m.table) (input : Loose)
    (d n : Nat) (hcrash : ∀ k < n, ¬ (step^[k] (m.load input)).CrashesNext) :
    ∃ placed, (u.load (Loose.whole (blanks d) ++ input)).setHead d = .ok placed ∧
      (step^[n] (m.load input)).standing.Shifted d (step^[n] placed).standing := by
  obtain ⟨placed, hplaced⟩ :
      ∃ placed, (u.load (Loose.whole (blanks d) ++ input)).setHead d = .ok placed :=
    ⟨_, if_neg (by omega)⟩
  obtain ⟨hkept, hstart⟩ := shifted_setHead (m := m) hplaced
  have htable' : placed.table = (m.load input).table := hkept.trans htable
  exact ⟨placed, hplaced, shifted_iterate htable' hstart hcrash⟩

/-- A program that goes back to the first cell, and is stuck there. -/
def turningSource : String := "q0 a/b,R q1\nq1 a/_,L q2\nq2 b/a,S q3"

/-- The program of that text. -/
def turningProgram : Program :=
  let table := Program.tableOf [⟨"q0", "a", "b", "R", "q1", 0⟩, ⟨"q1", "a", "_", "L", "q2", 1⟩,
    ⟨"q2", "b", "a", "S", "q3", 2⟩]
  ⟨table, Graph.ofTable table⟩

/-- It rejects in the fourth step without a crash, and behind three blanks as well. -/
theorem shifted_iterate_load_turning :
    Program.ofSource turningSource = .ok turningProgram ∧
      (∀ k < 4, ¬ (step^[k] ((ofTable turningProgram.table none).load "aa")).CrashesNext) ∧
      (step^[4] ((ofTable turningProgram.table none).load "aa")).status = .rejected ∧
      ∃ placed, (((ofTable turningProgram.table (some 1)).step).load
          (Loose.whole (blanks 3) ++ Loose.whole "aa")).setHead (3 : Nat) = .ok placed ∧
        (step^[4] ((ofTable turningProgram.table none).load "aa")).standing.Shifted 3
          (step^[4] placed).standing := by
  have hsource : Program.ofSource turningSource = .ok turningProgram := by decide +kernel
  have hcrash : ∀ k < 4,
      ¬ (step^[k] ((ofTable turningProgram.table none).load "aa")).CrashesNext := by decide +kernel
  have htable : ((ofTable turningProgram.table (some 1)).step).table =
      (ofTable turningProgram.table none).table := table_step _
  exact ⟨hsource, hcrash, by decide +kernel, shifted_iterate_load htable "aa" 3 4 hcrash⟩

end Machine

end TapeMachine
