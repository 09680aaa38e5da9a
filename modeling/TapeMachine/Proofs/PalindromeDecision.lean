import Mathlib.Data.List.Palindrome
import Mathlib.Tactic.Ring
import TapeMachine.Proofs.CleanTape
import TapeMachine.Proofs.CompiledTable
import TapeMachine.Proofs.PalindromeProgram

/-!
# The bundled program decides palindromes

A round of the program takes equal letters off both ends of the word on the tape: it takes the first
letter, runs right over the rest, checks the last letter and runs back. The number of transitions is
exact in each phase, so it is exact in the whole.

## Main results

- `reaches_right`, `reaches_left`: the two sweeps
- `reaches_round`: a round on a word with equal ends
- `accepts_of_palindrome`, `rejects_of_not_palindrome`: how the runs on words end
- `palindrome_decides`: the verdict on every input, with the number of steps
-/

namespace TapeMachine.Sample

open Text (Loose)

/-- The number of steps in which a palindrome is accepted, by its length. -/
def stepsFor (n : Nat) : Nat := (n + 1) * (n + 2) / 2

theorem stepsFor_add_two (n : Nat) : stepsFor (n + 2) = stepsFor n + (2 * n + 5) := by
  have h : (n + 2 + 1) * (n + 2 + 2) = (n + 1) * (n + 2) + 2 * (2 * n + 5) := by ring
  rw [stepsFor, stepsFor, h]
  omega

/-- The marks of a word. -/
def marks (w : List Letter) : List Mark := w.map fun x => x.symbol

/-- The tape with a word on it, from a cell on. -/
def wordTape (k : Nat) (w : List Letter) : Tape := Tape.empty.writeFrom k (marks w)

/-! ## Words on tapes -/

variable (k : Nat) (w : List Letter) (x : Letter)

theorem clean_wordTape : (wordTape k w).IsClean := Tape.clean_empty.writeFrom k _

theorem read_wordTape_of_lt {i : Nat} (h : i < k) : (wordTape k w).read i = blank := by
  rw [wordTape, Tape.read_empty_writeFrom, if_neg (by omega)]

theorem read_wordTape_end {i : Nat} (h : i = k + w.length) : (wordTape k w).read i = blank := by
  rw [wordTape, Tape.read_empty_writeFrom, if_pos (by omega),
    List.getElem?_eq_none (by simp [marks]; omega)]
  rfl

theorem read_wordTape_add {j : Nat} (h : j < w.length) :
    (wordTape k w).read (k + j) = w[j].symbol := by
  have hj : (marks w)[j]? = some (w[j].symbol : Mark) := by simp [marks, h]
  rw [wordTape, Tape.read_empty_writeFrom, if_pos (by omega), Nat.add_sub_cancel_left, hj]
  rfl

/-- The last letter of a word that starts in the next cell. -/
theorem read_wordTape_last :
    (wordTape (k + 1) (w ++ [x])).read (k + (w.length + 1)) = x.symbol := by
  have h := read_wordTape_add (k + 1) (w ++ [x]) (j := w.length) (by simp)
  rw [List.getElem_concat_length rfl] at h
  rwa [show k + 1 + w.length = k + (w.length + 1) by omega] at h

theorem wordTape_erase_first : (wordTape k (x :: w)).write k blank = wordTape (k + 1) w :=
  Tape.writeFrom_erase_first k x.symbol (marks w)

theorem wordTape_erase_last {i : Nat} (h : i = k + w.length) :
    (wordTape k (w ++ [x])).write i blank = wordTape k w := by
  have hlast := Tape.writeFrom_erase_last k (marks w) x.symbol
  have hmarks : marks (w ++ [x]) = marks w ++ [(x.symbol : Mark)] := by simp [marks]
  have hlength : (marks w).length = w.length := by simp [marks]
  rw [hlength] at hlast
  rw [wordTape, hmarks, h, hlast, wordTape]

/-! ## Phases of a round -/

/-- The sweep to the right goes over every letter of the word. -/
theorem reaches_right {j n : Nat} (h : j + n = w.length) :
    program.table.Reaches n ⟨wordTape k w, k + j, x.seek⟩
      ⟨wordTape k w, k + w.length, x.seek⟩ := by
  -- induction on the number of letters that are still ahead
  induction n generalizing j with
  | zero =>
    rw [← h, Nat.add_zero]
    exact .refl _
  | succ n ih =>
    have hread := read_wordTape_add k w (show j < w.length by omega)
    have hfirst := Table.Reaches.of_action?_same (clean_wordTape k w) hread (action?_seek x _) rfl
      x.seek_ne_acceptState
    have hrest := ih (show j + 1 + n = w.length by omega)
    exact (hfirst.trans hrest).of_eq (Nat.add_comm 1 n)

/-- The sweep to the left ends on the blank in front of the word. -/
theorem reaches_left {n : Nat} (h : n ≤ w.length) :
    program.table.Reaches n ⟨wordTape (k + 1) w, k + n, "q5"⟩ ⟨wordTape (k + 1) w, k, "q5"⟩ := by
  -- induction on the number of letters up to the head
  induction n with
  | zero => exact .refl _
  | succ n ih =>
    have hread := read_wordTape_add (k + 1) w (show n < w.length by omega)
    rw [show k + 1 + n = k + (n + 1) by omega] at hread
    have hfirst := Table.Reaches.of_action?_same (j := k + n) (clean_wordTape (k + 1) w) hread
      (action?_back _) rfl (by decide)
    exact (hfirst.trans (ih (by omega))).of_eq (Nat.add_comm 1 n)

/-- The first letter is taken, and the last one is about to be checked. -/
theorem reaches_check :
    program.table.Reaches (w.length + 2) ⟨wordTape k (x :: w), k, startState⟩
      ⟨wordTape (k + 1) w, k + w.length, x.check⟩ := by
  have hfirst : (wordTape k (x :: w)).read k = x.symbol :=
    read_wordTape_add k (x :: w) (j := 0) (Nat.succ_pos _)
  have htake := Table.Reaches.of_action? (j := k + 1) hfirst (action?_take x) rfl
    x.seek_ne_acceptState
  rw [wordTape_erase_first] at htake
  have hright := reaches_right (k + 1) w x (Nat.zero_add w.length)
  have hend := read_wordTape_end (k + 1) w rfl
  -- the blank behind the word turns the head round
  have hturn := Table.Reaches.of_action?_same (j := k + w.length) (clean_wordTape (k + 1) w) hend
    (action?_turn x) (by rw [Nat.add_right_comm]; rfl) x.check_ne_acceptState
  exact ((htake.trans hright).trans hturn).of_eq (by omega)

/-- A round takes equal letters off both ends. -/
theorem reaches_round :
    program.table.Reaches (2 * w.length + 5) ⟨wordTape k (x :: (w ++ [x])), k, startState⟩
      ⟨wordTape (k + 1) w, k + 1, startState⟩ := by
  have hcheck := reaches_check k (w ++ [x]) x
  rw [List.length_append, List.length_singleton] at hcheck
  -- the last letter is equal to the first one, and is taken
  have hlast := read_wordTape_last k w x
  have hmatch := Table.Reaches.of_action? (j := k + w.length) hlast (action?_check x) rfl
    (by decide)
  rw [wordTape_erase_last (k + 1) w x (by omega)] at hmatch
  -- back to the front of what is left
  have hleft := reaches_left k w (Nat.le_refl w.length)
  have hfront := read_wordTape_of_lt (k + 1) w (Nat.lt_succ_self k)
  have hreturn := Table.Reaches.of_action?_same (j := k + 1) (clean_wordTape (k + 1) w) hfront
    action?_return rfl (by decide)
  exact (((hcheck.trans hmatch).trans hleft).trans hreturn).of_eq (by omega)

/-- Different letters at the ends lead into the rejecting state. -/
theorem reaches_mismatch {x y : Letter} (h : x ≠ y) :
    program.table.Reaches (w.length + 4) ⟨wordTape k (x :: (w ++ [y])), k, startState⟩
      ⟨wordTape (k + 1) (w ++ [y]), k + (w.length + 1), "hr"⟩ := by
  have hcheck := reaches_check k (w ++ [y]) x
  rw [List.length_append, List.length_singleton] at hcheck
  have hlast := read_wordTape_last k w y
  have hreject := Table.Reaches.of_action?_same (clean_wordTape (k + 1) (w ++ [y])) hlast
    (action?_mismatch h) rfl (by decide)
  exact (hcheck.trans hreject).of_eq (by omega)

/-! ## Runs on words -/

/-- A palindrome is taken off the tape, and the last transition accepts. -/
theorem accepts_of_palindrome {w : List Letter} (h : w.Palindrome) (k : Nat) :
    ∃ n c head, n + 1 = stepsFor w.length ∧
      program.table.Reaches n ⟨wordTape k w, k, startState⟩ c ∧
      program.table.outcome c = .fires ⟨.empty, head, acceptState⟩ := by
  induction h generalizing k with
  | nil =>
    have hread := read_wordTape_end k [] (Nat.add_zero k).symm
    have haccept := Table.outcome_of_action?_same (j := k) (clean_wordTape k []) hread action?_empty
      rfl
    exact ⟨0, _, k, rfl, .refl _, haccept⟩
  | singleton x =>
    -- the letter was taken as the first one, and there is no last one
    have hread := read_wordTape_of_lt (k + 1) [] (Nat.lt_succ_self k)
    have haccept := Table.outcome_of_action?_same (j := k) (clean_wordTape (k + 1) []) hread
      (action?_middle x) rfl
    exact ⟨2, _, k, by simp [stepsFor], reaches_check k [] x, haccept⟩
  | @cons_concat x w _ ih =>
    obtain ⟨n, c, head, hsteps, hrest, haccept⟩ := ih (k + 1)
    refine ⟨2 * w.length + 5 + n, c, head, ?_, (reaches_round k w x).trans hrest, haccept⟩
    have hlength : (x :: (w ++ [x])).length = w.length + 2 := by simp
    rw [hlength, stepsFor_add_two]
    omega

/-- A word that is no palindrome is left in the rejecting state, and that in time. -/
theorem rejects_of_not_palindrome {w : List Letter} (h : ¬ w.Palindrome) (k : Nat) :
    ∃ n c why, n + 1 ≤ stepsFor w.length ∧
      program.table.Reaches n ⟨wordTape k w, k, startState⟩ c ∧
      c.state = "hr" ∧ program.table.outcome c = .rejects why := by
  -- induction that takes letters off both ends at once, as a round does
  induction w using List.bidirectionalRec generalizing k with
  | nil => exact absurd .nil h
  | singleton x => exact absurd (.singleton x) h
  | cons_append x w y ih =>
    have hlength : (x :: (w ++ [y])).length = w.length + 2 := by simp
    rw [hlength, stepsFor_add_two]
    by_cases hxy : x = y
    · subst hxy
      have hw : ¬ w.Palindrome := fun hw => h (.cons_concat x hw)
      obtain ⟨n, c, why, hsteps, hrest, hstate, hreject⟩ := ih hw (k + 1)
      refine ⟨2 * w.length + 5 + n, c, why, ?_, (reaches_round k w x).trans hrest, hstate, hreject⟩
      omega
    · have hlast := read_wordTape_last k w y
      have hreject : program.table.outcome
          ⟨wordTape (k + 1) (w ++ [y]), k + (w.length + 1), "hr"⟩ =
            .rejects (.noTransition "hr" y.symbol) := by
        rw [Table.outcome, hlast, lookup_reject]
      exact ⟨w.length + 4, _, _, by omega, reaches_mismatch k w hxy, rfl, hreject⟩

/-! ## Runs on inputs -/

/-- An input over the two letters is a word. -/
theorem exists_word {cs : List Char} (h : ∀ c ∈ cs, c = 'a' ∨ c = 'b') :
    ∃ w : List Letter, w.map Letter.char = cs := by
  induction cs with
  | nil => exact ⟨[], rfl⟩
  | cons c cs ih =>
    obtain ⟨w, rfl⟩ := ih fun d hd => h d (List.mem_cons_of_mem c hd)
    rcases h c List.mem_cons_self with rfl | rfl
    · exact ⟨.a :: w, rfl⟩
    · exact ⟨.b :: w, rfl⟩

theorem ofInput_eq_wordTape {s : String} {w : List Letter} (h : w.map Letter.char = s.toList) :
    Tape.ofInput s = wordTape 0 w := by
  have hmarks : Tape.marksOf s = marks w := by
    rw [Tape.marksOf, Loose.points, ← h, List.map_map, List.map_map]
    exact List.map_congr_left fun x _ => Loose.ofPoints_char x.char
  rw [Tape.ofInput, hmarks]
  rfl

theorem palindrome_iff_reverse_eq {s : String} {w : List Letter}
    (h : w.map Letter.char = s.toList) : s.toList.reverse = s.toList ↔ w.Palindrome := by
  rw [List.Palindrome.iff_reverse_eq, ← h, ← List.map_reverse]
  exact List.map_inj_right fun _ _ hxy => Letter.char_injective hxy

theorem length_eq {s : String} {w : List Letter} (h : w.map Letter.char = s.toList) :
    s.length = w.length := by
  rw [← String.length_toList, ← h, List.length_map]

theorem configuration_load (m : Machine) {s : String} {w : List Letter}
    (h : w.map Letter.char = s.toList) :
    (m.load s).configuration = ⟨wordTape 0 w, 0, startState⟩ := by
  rw [← ofInput_eq_wordTape h]
  rfl

/-- How a machine ends that decides whether a text is a palindrome. -/
structure Decides (s : String) (m : Machine) : Prop where
  halted : m.halted = true
  accepted_iff : m.status = .accepted ↔ s.toList.reverse = s.toList
  of_accepted : m.status = .accepted →
    m.tape = .empty ∧ m.state = acceptState ∧ m.stepCount = stepsFor s.length
  of_not_accepted : m.status ≠ .accepted → m.status = .rejected ∧ m.state = "hr"

/-- A machine that has loaded a palindrome accepts it with the last of the steps for its length. -/
theorem decides_of_palindrome {m : Machine} (hm : m.table = program.table) {s : String}
    {w : List Letter} (hw : w.map Letter.char = s.toList) (hp : w.Palindrome) (calls : Nat) :
    (stepsFor s.length ≤ calls → Decides s (Machine.step^[calls] (m.load s))) ∧
      (Machine.step^[calls] (m.load s)).verdict =
        if stepsFor s.length ≤ calls then .accepted else .rejected := by
  obtain ⟨n, c, head, hsteps, hreaches, haccept⟩ := accepts_of_palindrome hp 0
  rw [length_eq hw, ← hsteps]
  have htable : (m.load s).table = program.table := hm
  rw [← configuration_load m hw, ← htable] at hreaches
  rw [← htable] at haccept
  refine ⟨fun hcalls => ?_, Machine.verdict_accepts rfl hreaches haccept rfl calls⟩
  -- behind the accepting transition nothing changes
  obtain ⟨hconfiguration, hstatus, hcount⟩ :=
    Machine.iterate_step_accepts rfl hreaches haccept rfl hcalls
  have hreverse := (palindrome_iff_reverse_eq hw).2 hp
  refine ⟨by rw [Machine.halted, hstatus]; rfl, ⟨fun _ => hreverse, fun _ => hstatus⟩, fun _ => ?_,
    fun hne => absurd hstatus hne⟩
  have htape := congrArg Configuration.tape hconfiguration
  have hstate := congrArg Configuration.state hconfiguration
  refine ⟨htape, hstate, ?_⟩
  rw [hcount, length_eq hw, ← hsteps]
  exact Nat.zero_add (n + 1)

/-- A machine that has loaded no palindrome rejects it, and that in time. -/
theorem decides_of_not_palindrome {m : Machine} (hm : m.table = program.table) {s : String}
    {w : List Letter} (hw : w.map Letter.char = s.toList) (hp : ¬ w.Palindrome) (calls : Nat) :
    (stepsFor s.length ≤ calls → Decides s (Machine.step^[calls] (m.load s))) ∧
      (Machine.step^[calls] (m.load s)).verdict = .rejected := by
  obtain ⟨n, c, why, hsteps, hreaches, hstate, hreject⟩ := rejects_of_not_palindrome hp 0
  rw [length_eq hw]
  have htable : (m.load s).table = program.table := hm
  rw [← configuration_load m hw, ← htable] at hreaches
  rw [← htable] at hreject
  refine ⟨fun hcalls => ?_, Machine.verdict_rejects rfl hreaches hreject calls⟩
  obtain ⟨hconfiguration, hstatus⟩ :=
    Machine.iterate_step_rejects rfl hreaches hreject (hsteps.trans hcalls)
  have hreverse : ¬ s.toList.reverse = s.toList := fun h => hp ((palindrome_iff_reverse_eq hw).1 h)
  have hne : (Machine.step^[calls] (m.load s)).status ≠ .accepted := by rw [hstatus]; decide
  have hend := (congrArg Configuration.state hconfiguration).trans hstate
  exact ⟨by rw [Machine.halted, hstatus]; rfl, ⟨fun h => absurd h hne, fun h => absurd h hreverse⟩,
    fun h => absurd h hne, fun _ => ⟨hstatus, hend⟩⟩

/-- The bundled text compiles, and a machine with its program decides palindromes: it halts on every
    input over the two letters within the bound, and accepts after exactly so many steps or rejects.
    The evaluator accepts the palindromes for which it has as many steps. -/
theorem palindrome_decides {m : Machine} (hm : m.table = program.table) {s : String}
    (hs : ∀ c ∈ s.toList, c = 'a' ∨ c = 'b') :
    Program.ofSource palindrome = .ok program ∧
      (∀ calls, stepsFor s.length ≤ calls → Decides s (Machine.step^[calls] (m.load s))) ∧
      ∀ bound : Nat, program.table.evaluate s bound =
        .ok (if s.toList.reverse = s.toList ∧ stepsFor s.length ≤ bound then .accepted
          else .rejected) := by
  obtain ⟨w, hw⟩ := exists_word hs
  -- the evaluator has the verdict of the machine
  have hdirections : (m.load s).table.HasDirections := by
    show m.table.HasDirections
    rw [hm]
    exact (Program.isCompiled_of_ofSource ofSource_palindrome).hasDirections
  have hevaluate : ∀ bound : Nat, program.table.evaluate s bound =
      .ok (Machine.step^[bound] (m.load s)).verdict := by
    intro bound
    rw [← hm]
    exact Machine.evaluateFrom_eq_verdict hdirections rfl bound
  refine ⟨ofSource_palindrome, ?_⟩
  by_cases hp : w.Palindrome
  · have hdecides := decides_of_palindrome hm hw hp
    have hreverse := (palindrome_iff_reverse_eq hw).2 hp
    refine ⟨fun calls => (hdecides calls).1, fun bound => ?_⟩
    rw [hevaluate, (hdecides bound).2]
    simp only [hreverse, true_and]
  · have hdecides := decides_of_not_palindrome hm hw hp
    have hreverse : ¬ s.toList.reverse = s.toList :=
      fun h => hp ((palindrome_iff_reverse_eq hw).1 h)
    refine ⟨fun calls => (hdecides calls).1, fun bound => ?_⟩
    rw [hevaluate, (hdecides bound).2, if_neg fun h => hreverse h.1]

/-- The decision on a palindrome of even length. -/
theorem palindrome_decides_abba :
    (Machine.ofTable program.table none).table = program.table ∧
      (∀ c ∈ "abba".toList, c = 'a' ∨ c = 'b') ∧
      Program.ofSource palindrome = .ok program ∧
      (∀ calls, stepsFor "abba".length ≤ calls →
        Decides "abba" (Machine.step^[calls] ((Machine.ofTable program.table none).load "abba"))) ∧
      ∀ bound : Nat, program.table.evaluate "abba" bound =
        .ok (if "abba".toList.reverse = "abba".toList ∧ stepsFor "abba".length ≤ bound
          then .accepted else .rejected) :=
  ⟨rfl, by simp, palindrome_decides rfl (by simp)⟩

end TapeMachine.Sample
