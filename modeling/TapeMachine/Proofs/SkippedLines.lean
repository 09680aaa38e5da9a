import TapeMachine.Proofs.CompileOutcome

/-!
# Skipped lines

Lines without a rule can be put anywhere into a program. Rules are numbered among themselves, so the
program that is made does not change at all. Only the numbers of lines do, in rules and in messages:
each is that of the same line, at its new place.

A last line that is empty is none once the lines are joined. It would have been skipped.

## Main results

- `ruleLines_intercalate`: the rule lines of lines that are joined
- `Padding.ruleLines`: the same rule lines, at their new places
- `Program.ofSource_padded`: the same program, or the same refusal at the new places
-/

namespace TapeMachine

/-! ## Rule lines -/

/-- The lines that carry rules, with their places. -/
def rulesAmong (ls : List String) : List (String × Nat) :=
  ls.zipIdx.filter fun l => !isSkippable l.1

theorem ruleLines_eq (text : String) : ruleLines text = rulesAmong (Text.lines text) := rfl

theorem rulesAmong_cons (line : String) (ls : List String) :
    rulesAmong (line :: ls) = (if isSkippable line then [] else [(line, 0)]) ++
      (rulesAmong ls).map (Prod.map id (· + 1)) := by
  -- behind the first line, places are one higher
  have hlater : ((ls.zipIdx 1).filter fun l => !isSkippable l.1) =
      (rulesAmong ls).map (Prod.map id (· + 1)) := by
    rw [rulesAmong, List.zipIdx_succ, List.filter_map]
    rfl
  cases hline : isSkippable line <;> simp [rulesAmong, hline, hlater]

/-- A skippable line at the end carries no rule. -/
theorem rulesAmong_append_singleton {line : String} (hline : isSkippable line = true)
    (ls : List String) : rulesAmong (ls ++ [line]) = rulesAmong ls := by
  simp [rulesAmong, List.zipIdx_append, hline]

/-- Lines that are joined keep their rule lines, although a last line that is empty is lost. -/
theorem ruleLines_intercalate {ls : List String}
    (h : ∀ l ∈ ls, ∀ c ∈ l.toList, Text.isLineBreak c = false) :
    ruleLines ("\n".intercalate ls) = rulesAmong ls := by
  rw [ruleLines_eq, Text.lines_intercalate h]
  by_cases hlast : ls.getLast? = some ""
  · obtain ⟨before, rfl⟩ := List.getLast?_eq_some_iff.1 hlast
    rw [if_pos hlast, List.dropLast_concat, rulesAmong_append_singleton (by decide)]
  · rw [if_neg hlast]

/-! ## Padding -/

/-- A way to put skippable lines among the lines of a program. -/
inductive Padding : List String → List String → Type
  | done : Padding [] []
  /-- The next line is one of the program. -/
  | keep {old new : List String} (line : String) : Padding old new →
      Padding (line :: old) (line :: new)
  /-- The next line is put in. -/
  | insert {old new : List String} (line : String) : isSkippable line = true → Padding old new →
      Padding old (line :: new)

namespace Padding

variable {old new : List String}

/-- Where a line of the program stands afterwards. -/
def place : {old new : List String} → Padding old new → Nat → Nat
  | _, _, .done, i => i
  | _, _, .keep _ _, 0 => 0
  | _, _, .keep _ p, i + 1 => p.place i + 1
  | _, _, .insert _ _ p, i => p.place i + 1

/-- The line at the new place is the line. -/
theorem getElem?_place (p : Padding old new) (i : Nat) : new[p.place i]? = old[i]? := by
  induction p generalizing i with
  | done => rfl
  | keep line p ih =>
    cases i with
    | zero => rfl
    | succ i => exact ih i
  | insert line hline p ih => exact ih i

/-- The lines of the program stay in order. -/
theorem place_lt_place (p : Padding old new) {i j : Nat} (h : i < j) : p.place i < p.place j := by
  induction p generalizing i j with
  | done => exact h
  | keep line p ih =>
    cases j with
    | zero => contradiction
    | succ j =>
      cases i with
      | zero => exact Nat.succ_pos _
      | succ i => exact Nat.succ_lt_succ (ih (Nat.lt_of_succ_lt_succ h))
  | insert line hline p ih => exact Nat.succ_lt_succ (ih h)

theorem subset (p : Padding old new) : old ⊆ new := by
  induction p with
  | done => exact List.Subset.refl _
  | keep line p ih => exact List.cons_subset_cons line ih
  | insert line hline p ih => exact List.subset_cons_of_subset line ih

/-- Rules stay the same, and go to the places of their lines. -/
theorem rulesAmong (p : Padding old new) :
    rulesAmong new = (rulesAmong old).map (Prod.map id p.place) := by
  induction p with
  | done => rfl
  | keep line p ih =>
    rw [rulesAmong_cons, rulesAmong_cons, ih]
    cases isSkippable line <;> simp [place, Function.comp_def]
  | insert line hline p ih =>
    rw [rulesAmong_cons, if_pos hline, ih]
    simp [place, Function.comp_def]

end Padding

/-! ## Lines in rules and messages -/

/-- The rule, read from a line at another place. -/
def Rule.relocate (place : Nat → Nat) (r : Rule) : Rule := { r with line := place r.line.toNat }

/-- The number of a line at another place. Lines are numbered from one. -/
def relocateNumber (place : Nat → Nat) (n : Int) : Int := place (n - 1).toNat + 1

/-- The cause, with every line at another place. -/
def CompileError.relocate (place : Nat → Nat) : CompileError → CompileError
  | .malformed text line => .malformed text (relocateNumber place line)
  | .empty => .empty
  | .duplicate state symbol first line =>
    .duplicate state symbol (relocateNumber place first) (relocateNumber place line)

/-- What is read does not depend on where it stands. -/
theorem Rule.ofLine_relocate (place : Nat → Nat) (text : String) (i : Nat) :
    Rule.ofLine text (place i) =
      ((Rule.ofLine text i).map (relocate place)).mapError (.relocate place) := by
  -- whether the line is read, and as which parts, is said without its place
  cases hread : Rule.ofLine text i with
  | ok r =>
    obtain ⟨p, hp, rfl⟩ := Rule.ofLine_eq_ok_iff.1 hread
    exact Rule.ofLine_eq_ok_iff.2 ⟨p, hp, rfl⟩
  | error e =>
    obtain ⟨hnone, rfl⟩ := Rule.ofLine_eq_error_iff.1 hread
    rw [Rule.ofLine_eq_error_iff.2 ⟨hnone, rfl⟩]
    simp [Except.map, Except.mapError, CompileError.relocate, relocateNumber]

theorem readRules_relocate {text text' : String} {place : Nat → Nat}
    (h : ruleLines text' = (ruleLines text).map (Prod.map id place)) :
    readRules text' =
      ((readRules text).map (List.map (Rule.relocate place))).mapError (.relocate place) := by
  rw [readRules, h]
  exact mapM_map_of_comm fun line _ => Rule.ofLine_relocate place line.1 line.2

namespace Program

/-- Rules are numbered among themselves, and not by their lines. -/
theorem tableOf_relocate (place : Nat → Nat) (rules : List Rule) :
    tableOf (rules.map (Rule.relocate place)) = tableOf rules := by
  rw [tableOf, tableOf, List.zipIdx_map, List.map_map]
  rfl

theorem firstRepeat?_relocate (place : Nat → Nat) (rules : List Rule) :
    firstRepeat? ∅ (rules.map (Rule.relocate place)) =
      (firstRepeat? ∅ rules).map (Prod.map (Rule.relocate place) (Rule.relocate place)) := by
  -- keys do not tell lines, so the same rules are repeated
  have hkeys : ∀ rs : List Rule, (rs.map (Rule.relocate place)).map Rule.key = rs.map Rule.key :=
    fun rs => by simp [Rule.relocate, Rule.key, Function.comp_def]
  cases hrepeat : firstRepeat? ∅ rules with
  | none =>
    rw [firstRepeat?_eq_none_iff, ← hkeys, ← firstRepeat?_eq_none_iff] at hrepeat
    exact hrepeat
  | some found =>
    obtain ⟨before, after, rfl, hnodup, hfirst, hkey⟩ := firstRepeat?_eq_some_iff.1 hrepeat
    refine firstRepeat?_eq_some_iff.2 ⟨before.map (Rule.relocate place),
      after.map (Rule.relocate place), by simp, ?_, List.mem_map_of_mem hfirst, hkey⟩
    rwa [hkeys]

theorem ofRules_relocate (place : Nat → Nat) (rules : List Rule) :
    ofRules (rules.map (Rule.relocate place)) = (ofRules rules).mapError (.relocate place) := by
  unfold ofRules
  rw [List.isEmpty_map, firstRepeat?_relocate, tableOf_relocate]
  cases rules.isEmpty with
  | true => rfl
  | false =>
    cases firstRepeat? ∅ rules with
    | none => rfl
    | some found =>
      simp [Except.mapError, CompileError.relocate, relocateNumber, Rule.relocate]

/-- A text whose rules are those of another one, at other places, holds the same program, or is
refused for the same cause at the other places. -/
theorem ofSource_relocate {text text' : String} {place : Nat → Nat}
    (h : ruleLines text' = (ruleLines text).map (Prod.map id place)) :
    ofSource text' = (ofSource text).mapError (.relocate place) := by
  have hrules := readRules_relocate h
  cases hread : readRules text with
  | error e =>
    rw [hread] at hrules
    rw [ofSource_of_error hrules, ofSource_of_error hread]
    rfl
  | ok rules =>
    rw [hread] at hrules
    rw [ofSource_of_ok hrules, ofSource_of_ok hread, ofRules_relocate]

/-- Lines without a rule, put anywhere among the lines of a program, only move these, and leave the
program as it is; a refusal stays the same with its lines at their new places. -/
theorem ofSource_padded {old new : List String} (p : Padding old new)
    (hnew : ∀ line ∈ new, ∀ c ∈ line.toList, Text.isLineBreak c = false) :
    (∀ i, new[p.place i]? = old[i]?) ∧ (∀ i j, i < j → p.place i < p.place j) ∧
      ofSource ("\n".intercalate new) =
        (ofSource ("\n".intercalate old)).mapError (.relocate p.place) := by
  have hold : ∀ line ∈ old, ∀ c ∈ line.toList, Text.isLineBreak c = false :=
    fun line hline => hnew line (p.subset hline)
  refine ⟨p.getElem?_place, fun i j => p.place_lt_place, ?_⟩
  apply ofSource_relocate
  rw [ruleLines_intercalate hnew, ruleLines_intercalate hold, p.rulesAmong]

/-- A comment in front, and empty lines: what was on the lines 1 and 2 is on the lines 2 and 4. -/
def paddedRules :
    Padding ["q0 a/a,R q0", "q0 a/b,R q1"] ["# rules", "q0 a/a,R q0", "", "q0 a/b,R q1", ""] :=
  .insert "# rules" (by decide) (.keep _ (.insert "" (by decide) (.keep _
    (.insert "" (by decide) .done))))

theorem ofSource_padded_rules :
    ofSource ("\n".intercalate ["# rules", "q0 a/a,R q0", "", "q0 a/b,R q1", ""]) =
      .error (.duplicate "q0" "a" 2 4) := by
  have hold : ofSource ("\n".intercalate ["q0 a/a,R q0", "q0 a/b,R q1"]) =
      .error (.duplicate "q0" "a" 1 2) := by
    decide +kernel
  have hbreaks : ["# rules", "q0 a/a,R q0", "", "q0 a/b,R q1", ""].all
      (fun line => line.toList.all (!Text.isLineBreak ·)) = true := by
    decide
  have hunbroken : ∀ line ∈ ["# rules", "q0 a/a,R q0", "", "q0 a/b,R q1", ""],
      ∀ c ∈ line.toList, Text.isLineBreak c = false := by
    intro line hline c hc
    simpa using List.all_eq_true.1 (List.all_eq_true.1 hbreaks line hline) c hc
  rw [(ofSource_padded paddedRules hunbroken).2.2, hold]
  rfl

end Program

end TapeMachine
