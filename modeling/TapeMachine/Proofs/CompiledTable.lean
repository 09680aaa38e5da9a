import Mathlib.Data.List.Nodup
import TapeMachine.Program
import TapeMachine.Proofs.RuleGrammar
import TapeMachine.Proofs.Walks

/-!
# Compiled tables

A table that was compiled from a text holds rules as the grammar spells them, at most one for a
state and a symbol. So it names only the three directions, and a look-up finds a transition exactly
if it is the one for the state and the symbol: two keys never run together.

## Main results

- `Rule.spelled_of_ofLine`: a line that is read is a rule of the grammar
- `Program.isCompiled_of_ofSource`: the table of a compiled text is compiled
- `Table.IsCompiled.lookup_eq_matched_iff`: look-ups in a compiled table are exact
-/

namespace TapeMachine

/-! ## Rules that are read -/

namespace Rule

/-- The parts are of the kinds that the grammar asks for. -/
structure Parts.Spelled (p : Parts) : Prop where
  source : Word p.source
  read : SymbolChar p.read
  write : SymbolChar p.write
  target : Word p.target

theorem Spells.spelled {cs : List Char} {p : Parts} (h : Spells cs p) : p.Spelled := by
  obtain ⟨hsource, hread, hwrite, htarget⟩ := h
  exact ⟨hsource, hread, hwrite, htarget⟩

/-- What is read consists of parts of the right kinds. -/
theorem spelled_of_ofLine {text : String} {line : Int} {r : Rule}
    (h : ofLine text line = .ok r) : ∃ p : Parts, p.Spelled ∧ r = p.toRule line := by
  obtain ⟨p, hp, rfl⟩ := ofLine_eq_ok_iff.1 h
  exact ⟨p, Spells.spelled hp, rfl⟩

/-- What is read has single characters for symbols. -/
theorem exists_symbols_of_ofLine {text : String} {line : Int} {r : Rule}
    (h : ofLine text line = .ok r) : ∃ a b : Char, r.read = .singleton a ∧ r.write = .singleton b := by
  obtain ⟨p, -, rfl⟩ := spelled_of_ofLine h
  exact ⟨p.read, p.write, rfl, rfl⟩

end Rule

theorem spelled_of_readRules {text : String} {rules : List Rule} (h : readRules text = .ok rules) :
    ∀ r ∈ rules, ∃ p : Rule.Parts, p.Spelled ∧ ∃ line, r = p.toRule line := by
  intro r hr
  obtain ⟨⟨line, place⟩, -, hline⟩ := exists_of_mem_mapM h hr
  obtain ⟨p, hp, rfl⟩ := Rule.spelled_of_ofLine hline
  exact ⟨p, hp, place, rfl⟩

/-! ## Keys -/

/-- A state and a symbol of one character are told by their key. -/
theorem lookupKey_singleton_inj {q q' : State} {symbol : Symbol} {c c' : Char}
    (h : lookupKey q (.singleton c) = lookupKey q' symbol) (hs : symbol = .singleton c') :
    q = q' ∧ c = c' := by
  subst hs
  -- both keys end in one character, so what stands before it is equal as well
  have hl := congrArg String.toList h
  simp only [lookupKey, String.toList_append, String.toList_singleton, List.append_assoc] at hl
  obtain ⟨hq, hc⟩ := List.append_inj' hl (by simp)
  exact ⟨String.toList_inj.1 hq, by simpa using hc⟩

/-- If no key is repeated, the keys differ from each other and from the earlier ones. -/
theorem Program.nodup_of_firstRepeat? {earlier : Std.ExtTreeMap String Rule} {rules : List Rule}
    (h : firstRepeat? earlier rules = none) :
    (rules.map Rule.key).Nodup ∧ ∀ r ∈ rules, earlier[r.key]? = none := by
  induction rules generalizing earlier with
  | nil => exact ⟨List.nodup_nil, fun r hr => absurd hr List.not_mem_nil⟩
  | cons r rest ih =>
    unfold firstRepeat? at h
    split at h
    · contradiction
    · rename_i hr
      -- the walk through the rest knows the key of the first rule
      obtain ⟨hnodup, hfresh⟩ := ih h
      have hother : ∀ s ∈ rest, r.key ≠ s.key ∧ earlier[s.key]? = none := by
        intro s hs
        have := hfresh s hs
        rw [Std.ExtTreeMap.getElem?_insert] at this
        split at this
        · contradiction
        · rename_i hne
          exact ⟨fun e => hne (Std.compare_eq_iff_eq.2 e), this⟩
      refine ⟨List.nodup_cons.2 ⟨fun hmem => ?_, hnodup⟩, fun s hs => ?_⟩
      · obtain ⟨s, hs, hkey⟩ := List.mem_map.1 hmem
        exact (hother s hs).1 hkey.symm
      · cases hs with
        | head => exact hr
        | tail _ hs => exact (hother s hs).2

/-! ## Tables -/

namespace Table

open TapeMachine.Text (CodePoint Loose)

/-- If no key is repeated, a key finds the transition that has it. -/
theorem get?_eq_some_iff_of_nodup {table : Table}
    (h : (table.transitions.map Transition.key).Nodup) {key : String} {t : Transition} :
    table.get? key = some t ↔ t ∈ table.transitions ∧ t.key = key := by
  refine ⟨get?_some, fun ⟨ht, hkey⟩ => ?_⟩
  cases hget : table.get? key with
  | none => exact absurd hkey (get?_eq_none.1 hget t ht)
  | some u =>
    obtain ⟨hu, hukey⟩ := get?_some hget
    rw [List.inj_on_of_nodup_map h hu ht (hukey.trans hkey.symm)]

/-- If no key is repeated and all symbols that are read are single characters, a look-up finds
exactly the transition for the state and the character. -/
theorem lookup_eq_matched_iff_of_nodup {table : Table}
    (hnodup : (table.transitions.map Transition.key).Nodup)
    (hread : ∀ t ∈ table.transitions, ∃ c, t.read = .singleton c)
    {q : State} {x : CodePoint} {t : Transition} :
    table.lookup q (.ofPoints [x]) = .matched t ↔
      t ∈ table.transitions ∧ t.source = q ∧ Loose.whole t.read = .ofPoints [x] := by
  constructor
  · intro hlookup
    obtain ⟨ht, symbol, hsymbol, hkey⟩ := lookup_matched hlookup
    obtain ⟨r, hr⟩ := hread t ht
    cases x with
    -- a half is no text, and no key is looked up for it
    | half _ => contradiction
    | char c =>
      rw [Loose.ofPoints_char] at hsymbol
      obtain rfl := Option.some.inj hsymbol
      obtain ⟨hq, hc⟩ := lookupKey_singleton_inj hkey.symm hr
      exact ⟨ht, hq.symm, by rw [Loose.ofPoints_char, hr, hc]⟩
  · rintro ⟨ht, rfl, hx⟩
    have hget : table.get? (lookupKey t.source t.read) = some t :=
      (get?_eq_some_iff_of_nodup hnodup).2 ⟨ht, rfl⟩
    simp [lookup, ← hx, Loose.text?, hget]

/-- What a table is that was compiled from a text. -/
structure IsCompiled (table : Table) : Prop where
  spelled : ∀ t ∈ table.transitions, ∃ p : Rule.Parts, p.Spelled ∧
    ∃ line index, t = Transition.ofRule (p.toRule line) index
  nodup : (table.transitions.map Transition.key).Nodup

namespace IsCompiled

variable {table : Table} (h : table.IsCompiled)

include h

theorem hasDirections : table.HasDirections := by
  intro t ht
  obtain ⟨p, -, line, index, rfl⟩ := h.spelled t ht
  show (Direction.ofLetter? p.direction.letter).isSome
  rw [Direction.ofLetter?_letter]
  rfl

theorem get?_eq_some_iff {key : String} {t : Transition} :
    table.get? key = some t ↔ t ∈ table.transitions ∧ t.key = key :=
  get?_eq_some_iff_of_nodup h.nodup

/-- There is one transition for a state and a symbol. -/
theorem eq_of_source_of_read {t u : Transition} (ht : t ∈ table.transitions)
    (hu : u ∈ table.transitions) (hsource : t.source = u.source) (hread : t.read = u.read) :
    t = u := by
  refine List.inj_on_of_nodup_map h.nodup ht hu ?_
  rw [Transition.key, Transition.key, hsource, hread]

/-- Rules of the grammar read and write single characters. -/
theorem exists_symbols {t : Transition} (ht : t ∈ table.transitions) :
    ∃ r w : Char, t.read = .singleton r ∧ t.write = .singleton w := by
  obtain ⟨p, -, line, index, rfl⟩ := h.spelled t ht
  exact ⟨p.read, p.write, rfl, rfl⟩

/-- A look-up finds exactly the transition for the state and the character. -/
theorem lookup_eq_matched_iff {q : State} {x : CodePoint} {t : Transition} :
    table.lookup q (.ofPoints [x]) = .matched t ↔
      t ∈ table.transitions ∧ t.source = q ∧ Loose.whole t.read = .ofPoints [x] := by
  refine lookup_eq_matched_iff_of_nodup h.nodup fun t ht => ?_
  obtain ⟨r, -, hr, -⟩ := h.exists_symbols ht
  exact ⟨r, hr⟩

end IsCompiled

end Table

namespace Program

variable {rules : List Rule}

/-- What a transition has of its rule can be told from the rules. -/
theorem map_transitions_tableOf {α : Type} {f : Transition → α} {g : Rule → α}
    (hfg : ∀ r index, f (.ofRule r index) = g r) (rules : List Rule) :
    (tableOf rules).transitions.map f = rules.map g := by
  show (rules.zipIdx.map fun p => Transition.ofRule p.1 p.2).map f = _
  have hcomp : (f ∘ fun p : Rule × Nat => Transition.ofRule p.1 p.2) = g ∘ Prod.fst :=
    funext fun p => hfg p.1 p.2
  rw [List.map_map, hcomp, ← List.map_map, List.zipIdx_map_fst]

/-- The transitions of a program have the keys of its rules. -/
theorem keys_tableOf (rules : List Rule) :
    (tableOf rules).transitions.map Transition.key = rules.map Rule.key :=
  map_transitions_tableOf (fun _ _ => rfl) rules

theorem exists_rule_of_mem {t : Transition} (ht : t ∈ (tableOf rules).transitions) :
    ∃ r ∈ rules, ∃ index, t = .ofRule r index := by
  obtain ⟨⟨r, index⟩, hmem, rfl⟩ := List.mem_map.1 ht
  exact ⟨r, List.fst_mem_of_mem_zipIdx hmem, index, rfl⟩

theorem exists_ofRule_mem {r : Rule} (hr : r ∈ rules) :
    ∃ index, Transition.ofRule r index ∈ (tableOf rules).transitions := by
  obtain ⟨index, hindex⟩ := List.mem_iff_getElem?.1 hr
  exact ⟨index, List.mem_map.2 ⟨(r, index), List.mk_mem_zipIdx_iff_getElem?.2 hindex, rfl⟩⟩

/-- There is a program of rules if there are any, and none is repeated. -/
theorem ofRules_eq_ok_iff {rules : List Rule} {p : Program} :
    ofRules rules = .ok p ↔ rules ≠ [] ∧ firstRepeat? ∅ rules = none ∧
      p = ⟨tableOf rules, Graph.ofTable (tableOf rules)⟩ := by
  unfold ofRules
  by_cases hempty : rules = []
  · simp [hempty]
  · cases hrepeat : firstRepeat? ∅ rules with
    | none =>
      simp only [List.isEmpty_iff, hempty, if_false, ne_eq, not_false_eq_true, true_and,
        Except.ok.injEq]
      exact eq_comm
    | some repeated => simp [hempty]

/-- A text that compiles was read into rules without a repeated key. -/
theorem ofSource_eq_ok {source : String} {p : Program} (h : ofSource source = .ok p) :
    ∃ rules, readRules source = .ok rules ∧ firstRepeat? ∅ rules = none ∧
      p = ⟨tableOf rules, Graph.ofTable (tableOf rules)⟩ := by
  obtain ⟨rules, hread, hrules⟩ := bind_eq_ok h
  exact ⟨rules, hread, (ofRules_eq_ok_iff.1 hrules).2⟩

/-- Rules as the grammar spells them, none repeated, make a compiled table. -/
theorem isCompiled_tableOf {rules : List Rule}
    (hspelled : ∀ r ∈ rules, ∃ p : Rule.Parts, p.Spelled ∧ ∃ line, r = p.toRule line)
    (hnodup : (rules.map Rule.key).Nodup) : (tableOf rules).IsCompiled := by
  refine ⟨fun t ht => ?_, ?_⟩
  · obtain ⟨r, hr, index, rfl⟩ := exists_rule_of_mem ht
    obtain ⟨p, hp, line, rfl⟩ := hspelled r hr
    exact ⟨p, hp, line, index, rfl⟩
  · rwa [keys_tableOf]

/-- Rules that were read from lines, none repeated, make a compiled table. -/
theorem isCompiled_of_ofLine {rules : List Rule}
    (hread : ∀ r ∈ rules, ∃ text line, Rule.ofLine text line = .ok r)
    (hnodup : (rules.map Rule.key).Nodup) : (tableOf rules).IsCompiled := by
  refine isCompiled_tableOf (fun r hr => ?_) hnodup
  obtain ⟨text, line, hline⟩ := hread r hr
  obtain ⟨p, hp, hrule⟩ := Rule.spelled_of_ofLine hline
  exact ⟨p, hp, line, hrule⟩

theorem isCompiled_of_ofSource {source : String} {p : Program} (h : ofSource source = .ok p) :
    p.table.IsCompiled := by
  obtain ⟨rules, hread, hrepeat, rfl⟩ := ofSource_eq_ok h
  exact isCompiled_tableOf (spelled_of_readRules hread) (nodup_of_firstRepeat? hrepeat).1

end Program

end TapeMachine
