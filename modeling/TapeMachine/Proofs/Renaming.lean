import Mathlib.Logic.Equiv.Basic
import TapeMachine.Proofs.CompileOutcome
import TapeMachine.Proofs.LetteredTape
import TapeMachine.Proofs.Simulation
import TapeMachine.Proofs.VerdictAgreement

/-!
# Other names for states and symbols

A program may call its states and its symbols what it likes, except for the first state, the
accepting one and the blank. Renamed throughout, it gives the same verdict on the renamed input.

Names may be any texts. A rule is looked up under its state and its symbol put together, and since
the symbol is one character the two cannot be confused, whatever the state is called.

## Main results

- `Renaming.key_rule_eq_iff`: renamed rules are repeated just if the rules are
- `Renaming.lookup_tableOf`: look-ups in the renamed table find the renamed transitions
- `Renaming.together_of_renames`: outcomes go together on renamed tapes
- `Renaming.evaluate_renamed`: verdicts of renamed programs
-/

namespace TapeMachine

open Text (CodePoint Half Loose)

/-- New names for states and characters that tell apart what the old ones did, and keep the first
state, the accepting one and the blank. No program holds a half, so it does not matter what those
are called. -/
structure Renaming where
  state : State → State
  char : Char → Char
  half : Half → Half
  state_injective : Function.Injective state
  char_injective : Function.Injective char
  state_start : state startState = startState
  state_accept : state acceptState = acceptState
  char_blank : char blankChar = blankChar

namespace Renaming

variable (ρ : Renaming)

/-- The new name of a character, or of half of one. -/
def point : CodePoint → CodePoint
  | .char c => .char (ρ.char c)
  | .half h => .half (ρ.half h)

/-- The input with all its characters renamed. -/
def text (input : Loose) : Loose := .ofPoints (input.points.map ρ.point)

/-- The symbol with all its characters renamed. -/
def symbol (s : Symbol) : Symbol := .ofList (s.toList.map ρ.char)

/-- The rule renamed throughout. It stands in the same line. -/
def rule (r : Rule) : Rule :=
  { r with
    source := ρ.state r.source
    read := ρ.symbol r.read
    write := ρ.symbol r.write
    target := ρ.state r.target }

/-- The transition of the renamed rule. -/
def transition (t : Transition) : Transition :=
  { t with
    source := ρ.state t.source
    read := ρ.symbol t.read
    write := ρ.symbol t.write
    target := ρ.state t.target
    label := ρ.symbol t.read ++ "/" ++ ρ.symbol t.write ++ "," ++ t.move }

/-! ## Names -/

@[simp] theorem symbol_singleton (c : Char) : ρ.symbol (.singleton c) = .singleton (ρ.char c) := by
  rw [symbol, String.toList_singleton, List.map_singleton, String.singleton_eq_ofList]

theorem state_eq_accept_iff {q : State} : ρ.state q = acceptState ↔ q = acceptState := by
  constructor
  · intro h
    apply ρ.state_injective
    rw [h, ρ.state_accept]
  · rintro rfl
    exact ρ.state_accept

/-- The new name of a symbol stands for the new name of just the character that it stands for. -/
theorem whole_symbol_eq_iff {s : Symbol} {c : Char} (hs : s = .singleton c) {x : CodePoint} :
    Loose.whole (ρ.symbol s) = .ofPoints [ρ.point x] ↔ Loose.whole s = .ofPoints [x] := by
  rw [hs, symbol_singleton, Loose.whole_singleton_eq_iff, Loose.whole_singleton_eq_iff]
  cases x with
  | char d => simp [point, ρ.char_injective.eq_iff]
  | half h => simp [point]

theorem inputCell_text (input : Loose) (i : Nat) :
    Tape.inputCell (ρ.text input) i = ρ.point (Tape.inputCell input i) := by
  rw [Tape.inputCell, Tape.inputCell, text, Loose.points_ofPoints, List.getElem?_map]
  cases input.points[i]? with
  -- behind the input there are blanks, which keep their name
  | none => exact congrArg CodePoint.char ρ.char_blank.symm
  | some x => rfl

/-! ## Rules and tables -/

/-- Rules of single symbols have one key just if their renamed rules have one. -/
theorem key_rule_eq_iff {r s : Rule} {a b : Char} (hr : r.read = .singleton a)
    (hs : s.read = .singleton b) : (ρ.rule r).key = (ρ.rule s).key ↔ r.key = s.key := by
  have hkey : ∀ {q q' : State} {c c' : Char},
      lookupKey q (.singleton c) = lookupKey q' (.singleton c') ↔ q = q' ∧ c = c' := by
    intro q q' c c'
    constructor
    · intro h
      exact lookupKey_singleton_inj h rfl
    · rintro ⟨rfl, rfl⟩
      rfl
  simp only [Rule.key, rule, hr, hs, symbol_singleton, hkey, ρ.state_injective.eq_iff,
    ρ.char_injective.eq_iff]

/-- The table of the renamed rules has the renamed transitions. -/
theorem transitions_tableOf (rules : List Rule) :
    (Program.tableOf (rules.map ρ.rule)).transitions =
      (Program.tableOf rules).transitions.map ρ.transition := by
  rw [Program.tableOf, Program.tableOf, Table.ofList, Table.ofList, List.zipIdx_map, List.map_map,
    List.map_map]
  rfl

/-! ## Configurations -/

/-- The second configuration is the first one with states and cells renamed. -/
structure Renames (c c' : Configuration) : Prop where
  state : c'.state = ρ.state c.state
  head : c'.head = c.head
  cells : ∀ i, ∃ x, c.tape.read i = .ofPoints [x] ∧ c'.tape.read i = .ofPoints [ρ.point x]

theorem renames_start (input : Loose) :
    ρ.Renames ⟨.ofInput input, 0, startState⟩ ⟨.ofInput (ρ.text input), 0, startState⟩ where
  state := ρ.state_start.symm
  head := rfl
  cells i := by
    refine ⟨Tape.inputCell input i, Tape.read_ofInput input i, ?_⟩
    rw [Tape.read_ofInput, inputCell_text]

/-! ## Outcomes -/

section Outcomes

variable {rules : List Rule}
  (hread : ∀ r ∈ rules, ∃ text line, Rule.ofLine text line = .ok r)
  (hnodup : (rules.map Rule.key).Nodup)

include hread hnodup

/-- If no rule is repeated, no renamed one is. -/
theorem nodup_key_rule : ((rules.map ρ.rule).map Rule.key).Nodup := by
  have hpairs : rules.Pairwise fun r s => r.key ≠ s.key := List.pairwise_map.1 hnodup
  apply List.pairwise_map.2
  apply List.pairwise_map.2
  apply hpairs.imp_of_mem
  intro r s hr hs hne hkey
  obtain ⟨text, line, hr⟩ := hread r hr
  obtain ⟨text', line', hs⟩ := hread s hs
  obtain ⟨a, -, ha, -⟩ := Rule.exists_symbols_of_ofLine hr
  obtain ⟨b, -, hb, -⟩ := Rule.exists_symbols_of_ofLine hs
  exact hne ((ρ.key_rule_eq_iff ha hb).1 hkey)

/-- The renamed table finds the renamed transitions. -/
theorem lookup_tableOf (q : State) (x : CodePoint) :
    (Program.tableOf (rules.map ρ.rule)).lookup (ρ.state q) (.ofPoints [ρ.point x]) =
      ((Program.tableOf rules).lookup q (.ofPoints [x])).map ρ.transition := by
  have hcompiled := Program.isCompiled_of_ofLine hread hnodup
  have hkeys : ((Program.tableOf (rules.map ρ.rule)).transitions.map Transition.key).Nodup := by
    rw [Program.keys_tableOf]
    exact ρ.nodup_key_rule hread hnodup
  have hsymbols : ∀ t ∈ (Program.tableOf (rules.map ρ.rule)).transitions,
      ∃ c, t.read = .singleton c := by
    rw [transitions_tableOf]
    intro t ht
    obtain ⟨s, hs, rfl⟩ := List.mem_map.1 ht
    obtain ⟨a, -, ha, -⟩ := hcompiled.exists_symbols hs
    refine ⟨ρ.char a, ?_⟩
    rw [← symbol_singleton, ← ha]
    rfl
  apply Table.lookup_eq_map_of_matched_iff ρ.state_eq_accept_iff
  intro u
  rw [Table.lookup_eq_matched_iff_of_nodup hkeys hsymbols, transitions_tableOf]
  -- a renamed transition is for the new names just if the transition is for the old ones
  constructor
  · rintro ⟨hu, hsource, hx⟩
    obtain ⟨t, ht, rfl⟩ := List.mem_map.1 hu
    obtain ⟨a, -, ha, -⟩ := hcompiled.exists_symbols ht
    exact ⟨t, hcompiled.lookup_eq_matched_iff.2
      ⟨ht, ρ.state_injective hsource, (ρ.whole_symbol_eq_iff ha).1 hx⟩, rfl⟩
  · rintro ⟨t, hlookup, rfl⟩
    obtain ⟨ht, hsource, hx⟩ := hcompiled.lookup_eq_matched_iff.1 hlookup
    obtain ⟨a, -, ha, -⟩ := hcompiled.exists_symbols ht
    exact ⟨List.mem_map_of_mem ht, congrArg ρ.state hsource, (ρ.whole_symbol_eq_iff ha).2 hx⟩

/-- What the table makes of a configuration, the renamed table makes of the renamed one. -/
theorem together_of_renames {c c' : Configuration} (h : ρ.Renames c c') :
    ((Program.tableOf rules).outcome c).Together ρ.Renames
      ((Program.tableOf (rules.map ρ.rule)).outcome c') := by
  apply Table.together_of_lookup (f := ρ.transition) _ h.head (fun _ => rfl)
    fun _ => ρ.state_eq_accept_iff.symm
  · intro t direction position ht _ _
    obtain ⟨-, b, -, hb⟩ :=
      (Program.isCompiled_of_ofLine hread hnodup).exists_symbols (Table.lookup_matched ht).1
    have hwrite : Loose.whole t.write = .ofPoints [.char b] := by
      rw [hb, Loose.whole_singleton_eq_iff]
    refine ⟨rfl, rfl, fun i => ?_⟩
    rw [Tape.read_write, Tape.read_write]
    -- the cell that is written shows the renamed symbol, the others show what they did
    by_cases hi : c.head = i
    · rw [if_pos hi, if_pos hi]
      exact ⟨.char b, hwrite, (ρ.whole_symbol_eq_iff hb).2 hwrite⟩
    · rw [if_neg hi, if_neg hi]
      exact h.cells i
  · obtain ⟨x, hx, hx'⟩ := h.cells c.head
    rw [h.state, h.head, hx, hx']
    exact ρ.lookup_tableOf hread hnodup c.state x

end Outcomes

/-- Rules that were read from lines and make a program make one when they are renamed throughout,
and it gives every renamed input the verdict of the input. -/
theorem evaluate_renamed {rules : List Rule} {program : Program}
    (hprogram : Program.ofRules rules = .ok program)
    (hread : ∀ r ∈ rules, ∃ text line, Rule.ofLine text line = .ok r) (ρ : Renaming) :
    ∃ renamed, Program.ofRules (rules.map ρ.rule) = .ok renamed ∧
      ∀ input bound, ∃ status, program.table.evaluate input bound = .ok status ∧
        renamed.table.evaluate (ρ.text input) bound = .ok status := by
  obtain ⟨hne, hrepeat, rfl⟩ := Program.ofRules_eq_ok_iff.1 hprogram
  have hnodup := Program.firstRepeat?_eq_none_iff.1 hrepeat
  have hrenamed := Program.firstRepeat?_eq_none_iff.2 (ρ.nodup_key_rule hread hnodup)
  refine ⟨_, Program.ofRules_eq_ok_iff.2 ⟨by simpa using hne, hrenamed, rfl⟩, ?_⟩
  intro input bound
  have hdirections := (Program.isCompiled_of_ofLine hread hnodup).hasDirections
  obtain ⟨status, hstatus⟩ := Machine.exists_verdict hdirections input bound
  refine ⟨status, hstatus, ?_⟩
  rw [← hstatus]
  symm
  exact Table.evaluate_eq_of_together (fun _ _ _ h => ρ.together_of_renames hread hnodup h)
    (ρ.renames_start input)

/-- A renaming that puts colons, which separate states from symbols in keys, into both. -/
def colons : Renaming where
  state := Equiv.swap "q1" "q0:"
  char := Equiv.swap 'b' ':'
  half := id
  state_injective := Equiv.injective _
  char_injective := Equiv.injective _
  state_start := by decide
  state_accept := by decide
  char_blank := by decide

/-- Rules that write, erase and go back. -/
def returningRules : List Rule :=
  [⟨"q0", "a", "b", "R", "q1", 0⟩, ⟨"q1", "b", "_", "L", "hr", 1⟩, ⟨"hr", "b", "a", "S", "ha", 2⟩]

/-- No line spells the renamed rules, and still they make a program that accepts. -/
theorem evaluate_renamed_colons :
    returningRules.map colons.rule = [⟨"q0", "a", ":", "R", "q0:", 0⟩,
        ⟨"q0:", ":", "_", "L", "hr", 1⟩, ⟨"hr", ":", "a", "S", "ha", 2⟩] ∧
      ∃ program, Program.ofRules returningRules = .ok program ∧
        (∀ r ∈ returningRules, ∃ text line, Rule.ofLine text line = .ok r) ∧
        program.table.evaluate "ab" 3 = .ok .accepted ∧
        ∃ renamed, Program.ofRules (returningRules.map colons.rule) = .ok renamed ∧
          ∃ status, program.table.evaluate "ab" 3 = .ok status ∧
            renamed.table.evaluate (colons.text "ab") 3 = .ok status := by
  have hrules : Program.ofRules returningRules = .ok ⟨Program.tableOf returningRules,
      Graph.ofTable (Program.tableOf returningRules)⟩ := by decide +kernel
  have hread : ∀ r ∈ returningRules, ∃ text line, Rule.ofLine text line = .ok r := by
    simp only [returningRules, List.forall_mem_cons]
    exact ⟨⟨"q0 a/b,R q1", 0, by decide +kernel⟩, ⟨"q1 b/_,L hr", 1, by decide +kernel⟩,
      ⟨"hr b/a,S ha", 2, by decide +kernel⟩, fun r hr => absurd hr List.not_mem_nil⟩
  obtain ⟨renamed, hrenamed, hverdict⟩ := evaluate_renamed hrules hread colons
  exact ⟨by decide +kernel, _, hrules, hread, by decide +kernel, renamed, hrenamed,
    hverdict "ab" 3⟩

end Renaming

end TapeMachine
