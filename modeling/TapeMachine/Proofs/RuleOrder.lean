import TapeMachine.Proofs.CompileOutcome
import TapeMachine.Proofs.Simulation
import TapeMachine.Proofs.Standing
import TapeMachine.Proofs.VerdictAgreement

/-!
# The order of rules

A program may list its rules in any order. Its transitions get other numbers, which diagrams show,
but no step looks at a number. That rests on the check for repeated rules: of two transitions under
one key a table would find the one that is listed last.

So two tables are compared by what they find under each key, numbers aside. Tables that are `Alike`
make the same of every configuration, and then every loop over configurations goes the same way.

## Main results

- `Table.Alike.outcome_eq`: tables that find the same make the same of every configuration
- `Table.evaluate_congr`, `Machine.standing_iterate_congr`: then verdicts are the same, and machines
  stand alike after every step
- `Program.alike_of_perm`: rules in another order find the same
- `Program.behavesAs_of_perm`: programs with the same rules behave the same
-/

namespace TapeMachine

/-- The transition without its number. -/
def Transition.unnumbered (t : Transition) : Transition := { t with index := 0 }

/-! ## Tables that find the same -/

namespace Table

/-- The tables find the same transition under every key, up to its number. -/
def Alike (table other : Table) : Prop :=
  ∀ key, (table.get? key).map Transition.unnumbered = (other.get? key).map Transition.unnumbered

variable {table other : Table}

/-- Look-ups in tables that are alike match together, or come to the same. -/
theorem Alike.lookup_cases (h : table.Alike other) (q : State) (mark : Mark) :
    (∃ t u, table.lookup q mark = .matched t ∧ other.lookup q mark = .matched u ∧
      t.unnumbered = u.unnumbered) ∨ table.lookup q mark = other.lookup q mark := by
  unfold lookup
  cases mark.text? with
  | none => exact .inr rfl
  | some symbol =>
    have hkey := h (lookupKey q symbol)
    simp only [Option.bind_some]
    cases ht : table.get? (lookupKey q symbol) with
    | none =>
      rw [ht, Option.map_none, eq_comm, Option.map_eq_none_iff] at hkey
      right
      rw [hkey]
    | some t =>
      rw [ht, Option.map_some, eq_comm, Option.map_eq_some_iff] at hkey
      obtain ⟨u, hu, hsame⟩ := hkey
      left
      exact ⟨t, u, rfl, by rw [hu], hsame.symm⟩

/-- No configuration tells tables apart that are alike. -/
theorem Alike.outcome_eq (h : table.Alike other) (c : Configuration) :
    table.outcome c = other.outcome c := by
  unfold outcome
  rcases h.lookup_cases c.state (c.tape.read c.head) with
    ⟨t, u, ht, hu, hsame⟩ | hlookup
  · -- an outcome depends on three fields of the transition that is found
    simp only [Transition.unnumbered, Transition.mk.injEq] at hsame
    obtain ⟨-, -, hwrite, hmove, htarget, -, -⟩ := hsame
    simp only [ht, hu, Transition.direction?, hwrite, hmove, htarget]
  · rw [hlookup]

/-! ## The same outcomes -/

/-- Tables with the same outcomes decide every input alike. -/
theorem evaluate_congr (h : ∀ c, table.outcome c = other.outcome c) (input : Text.Loose)
    (bound : Int) : table.evaluate input bound = other.evaluate input bound := by
  apply evaluate_eq_of_together (R := fun _ => Eq) _ rfl
  rintro n c _ rfl
  rw [h]
  exact .refl _

end Table

namespace Machine

variable {m u : Machine}

/-- Machines whose tables have the same outcomes stay together. -/
theorem standing_iterate_congr (h : ∀ c, m.table.outcome c = u.table.outcome c)
    (hstanding : m.standing = u.standing) (n : Nat) :
    (step^[n] m).standing = (step^[n] u).standing := by
  rw [standing_iterate_step, standing_iterate_step, hstanding, Standing.step_congr h]

/-- What machines are about to do is the same, up to the number. -/
theorem activeTransition?_of_alike (h : m.table.Alike u.table)
    (hstanding : m.standing = u.standing) :
    m.activeTransition?.map Transition.unnumbered =
      u.activeTransition?.map Transition.unnumbered := by
  have hstatus : m.status = u.status := congrArg Standing.status hstanding
  have hstate : m.state = u.state := congrArg (·.configuration.state) hstanding
  have hmark : m.mark = u.mark :=
    congrArg (fun s => s.configuration.tape.read s.configuration.head) hstanding
  unfold activeTransition?
  rw [hstatus, hstate, hmark]
  split
  · rfl
  · rcases h.lookup_cases u.state u.mark with ⟨t, t', ht, ht', hsame⟩ | hlookup
    · simp [ht, ht', Lookup.transition?, hsame]
    · rw [hlookup]

end Machine

/-! ## Rules in another order -/

namespace Program

variable {rules permuted : List Rule}

/-- Under a key a table finds the rule that has it, whatever its number. -/
theorem get?_tableOf_eq_some_iff (h : (rules.map Rule.key).Nodup) {key : String}
    {t : Transition} :
    ((tableOf rules).get? key).map Transition.unnumbered = some t ↔
      ∃ r ∈ rules, r.key = key ∧ Transition.ofRule r 0 = t := by
  rw [← keys_tableOf] at h
  rw [Option.map_eq_some_iff]
  constructor
  · rintro ⟨u, hu, rfl⟩
    obtain ⟨hmem, hkey⟩ := Table.get?_some hu
    obtain ⟨r, hr, index, rfl⟩ := exists_rule_of_mem hmem
    exact ⟨r, hr, hkey, rfl⟩
  · rintro ⟨r, hr, rfl, rfl⟩
    obtain ⟨index, hmem⟩ := exists_ofRule_mem hr
    exact ⟨.ofRule r index, (Table.get?_eq_some_iff_of_nodup h).2 ⟨hmem, rfl⟩, rfl⟩

/-- Tables of the same rules are alike. -/
theorem alike_of_perm (hperm : rules.Perm permuted) (h : (rules.map Rule.key).Nodup) :
    (tableOf rules).Alike (tableOf permuted) := by
  intro key
  have hpermuted : (permuted.map Rule.key).Nodup := (hperm.map Rule.key).nodup h
  apply Option.ext
  intro t
  rw [get?_tableOf_eq_some_iff h, get?_tableOf_eq_some_iff hpermuted]
  simp only [hperm.mem_iff]

/-- The programs decide every input alike, and machines that run them stay together: after every
number of steps they stand alike and are about to make the same transition, numbers aside. -/
structure BehavesAs (program other : Program) : Prop where
  evaluate_eq : ∀ input bound,
    program.table.evaluate input bound = other.table.evaluate input bound
  standing_eq : ∀ m u : Machine, m.table = program.table → u.table = other.table →
    ∀ input n, (Machine.step^[n] (m.load input)).standing =
      (Machine.step^[n] (u.load input)).standing
  activeTransition?_eq : ∀ m u : Machine, m.table = program.table → u.table = other.table →
    ∀ input n, (Machine.step^[n] (m.load input)).activeTransition?.map Transition.unnumbered =
      (Machine.step^[n] (u.load input)).activeTransition?.map Transition.unnumbered

theorem behavesAs_of_alike {program other : Program} (h : program.table.Alike other.table) :
    program.BehavesAs other := by
  have hstanding : ∀ m u : Machine, m.table = program.table → u.table = other.table →
      ∀ input n, (Machine.step^[n] (m.load input)).standing =
        (Machine.step^[n] (u.load input)).standing := by
    intro m u hm hu input n
    apply Machine.standing_iterate_congr (m := m.load input) (u := u.load input) _ rfl
    intro c
    show m.table.outcome c = u.table.outcome c
    rw [hm, hu, h.outcome_eq]
  refine ⟨Table.evaluate_congr h.outcome_eq, hstanding, fun m u hm hu input n => ?_⟩
  apply Machine.activeTransition?_of_alike _ (hstanding m u hm hu input n)
  rw [Machine.table_iterate_step, Machine.table_iterate_step]
  show m.table.Alike u.table
  rwa [hm, hu]

/-- A program of rules that were read from lines gives a verdict on every input. -/
theorem exists_verdict_of_ofLine (h : (rules.map Rule.key).Nodup)
    (hread : ∀ r ∈ rules, ∃ text line, Rule.ofLine text line = .ok r) (input : Text.Loose)
    (bound : Int) : ∃ status, (tableOf rules).evaluate input bound = .ok status :=
  Machine.exists_verdict (isCompiled_of_ofLine hread h).hasDirections input bound

/-- The rules of a program in any other order make a program that behaves the same. If they were
read from lines, there always is a verdict. -/
theorem behavesAs_of_perm {program : Program} (h : ofRules rules = .ok program)
    (hperm : rules.Perm permuted) :
    ∃ other, ofRules permuted = .ok other ∧ program.BehavesAs other ∧
      ((∀ r ∈ rules, ∃ text line, Rule.ofLine text line = .ok r) →
        ∀ input bound, ∃ status, program.table.evaluate input bound = .ok status) := by
  obtain ⟨hne, hrepeat, rfl⟩ := ofRules_eq_ok_iff.1 h
  have hnodup := firstRepeat?_eq_none_iff.1 hrepeat
  have hpermuted : firstRepeat? ∅ permuted = none :=
    firstRepeat?_eq_none_iff.2 ((hperm.map Rule.key).nodup hnodup)
  have hnonempty : permuted ≠ [] := by
    intro hnil
    subst hnil
    exact hne hperm.eq_nil
  refine ⟨⟨tableOf permuted, Graph.ofTable (tableOf permuted)⟩, ?_, ?_, ?_⟩
  · exact ofRules_eq_ok_iff.2 ⟨hnonempty, hpermuted, rfl⟩
  · exact behavesAs_of_alike (alike_of_perm hperm hnodup)
  · exact exists_verdict_of_ofLine hnodup

/-- Three rules, two of them for one state. -/
def turningRules : List Rule :=
  [⟨"q0", "a", "b", "R", "q1", 0⟩, ⟨"q1", "_", "c", "L", "q0", 1⟩, ⟨"q0", "b", "_", "S", "ha", 2⟩]

/-- The rules from last to first. -/
theorem behavesAs_of_perm_turning :
    ∃ program, ofRules turningRules = .ok program ∧ turningRules.Perm turningRules.reverse ∧
      (∃ other, ofRules turningRules.reverse = .ok other ∧ program.BehavesAs other) ∧
      ∃ status, program.table.evaluate "a" 3 = .ok status := by
  have hrules : ofRules turningRules =
      .ok ⟨tableOf turningRules, Graph.ofTable (tableOf turningRules)⟩ := by decide +kernel
  have hperm : turningRules.Perm turningRules.reverse := (List.reverse_perm turningRules).symm
  have hread : ∀ r ∈ turningRules, ∃ text line, Rule.ofLine text line = .ok r := by
    simp only [turningRules, List.forall_mem_cons]
    exact ⟨⟨"q0 a/b,R q1", 0, by decide +kernel⟩, ⟨"q1 _/c,L q0", 1, by decide +kernel⟩,
      ⟨"q0 b/_,S ha", 2, by decide +kernel⟩, fun r hr => absurd hr List.not_mem_nil⟩
  obtain ⟨other, hother, hbehaves, hverdict⟩ := behavesAs_of_perm hrules hperm
  exact ⟨_, hrules, hperm, ⟨other, hother, hbehaves⟩, hverdict hread "a" 3⟩

end Program

end TapeMachine
