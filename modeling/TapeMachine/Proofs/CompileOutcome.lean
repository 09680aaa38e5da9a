import TapeMachine.Proofs.CompiledTable

/-!
# What becomes of a program text

A program text is refused for one of three causes, or compiled. Which of these it is, and what is
reported or made, is said in terms of its rule lines and of the grammar: a line that is no rule
comes first, however many rules are repeated; then a text without rules; then a repeated rule.

Rules are repeated when their states and symbols are, while the walk compares keys. Since a symbol
is one character, a key tells them apart.

## Main results

- `readRules_eq_ok_iff` / `readRules_eq_error_iff`: the rules of a text, or its first bad line
- `Program.firstRepeat?_eq_some_iff`: the first rule for a state and a symbol that have one
- `Program.report_ofSource_eq_iff`: the outcome of every text
- `Program.ofCompile_of_ofSource`: no text is too long for its message
-/

namespace TapeMachine

/-! ## The rules of a text -/

open Rule (Parts SpelledBy)

variable {text : String} {rules : List Rule}

/-- The rule lines are rules with these parts, at these places. -/
def ReadsAs (text : String) (ps : List (Parts × Nat)) : Prop :=
  List.Forall₂ (fun line p => SpelledBy line.1 p.1 ∧ p.2 = line.2) (ruleLines text) ps

theorem readRules_eq_ok_iff :
    readRules text = .ok rules ↔
      ∃ ps, ReadsAs text ps ∧ rules = ps.map fun p => p.1.toRule p.2 := by
  rw [readRules, mapM_eq_ok_iff]
  unfold ReadsAs
  generalize ruleLines text = lines
  constructor
  · intro h
    induction h with
    | nil => exact ⟨[], .nil, rfl⟩
    | @cons line r _ _ hr _ ih =>
      obtain ⟨p, hp, rfl⟩ := Rule.ofLine_eq_ok_iff.1 hr
      obtain ⟨ps, hps, rfl⟩ := ih
      exact ⟨(p, line.2) :: ps, .cons ⟨hp, rfl⟩ hps, rfl⟩
  · rintro ⟨ps, hps, rfl⟩
    rw [List.forall₂_map_right_iff]
    refine hps.imp fun line p ⟨hp, hplace⟩ => ?_
    exact Rule.ofLine_eq_ok_iff.2 ⟨p.1, hp, by rw [hplace]⟩

theorem readRules_eq_error_iff {e : CompileError} :
    readRules text = .error e ↔ ∃ before after : List (String × Nat), ∃ line place,
      ruleLines text = before ++ (line, place) :: after ∧
      (∀ l ∈ before, ∃ p, SpelledBy l.1 p) ∧ (∀ p, ¬ SpelledBy line p) ∧
      e = .malformed (Text.strip line) (place + 1) := by
  have hok : ∀ l : String × Nat, (∃ r, Rule.ofLine l.1 l.2 = .ok r) ↔ ∃ p, SpelledBy l.1 p := by
    intro l
    constructor
    · rintro ⟨r, hr⟩
      obtain ⟨p, hp, -⟩ := Rule.ofLine_eq_ok_iff.1 hr
      exact ⟨p, hp⟩
    · rintro ⟨p, hp⟩
      exact ⟨_, Rule.ofLine_eq_ok_iff.2 ⟨p, hp, rfl⟩⟩
  rw [readRules, mapM_eq_error_iff]
  constructor
  · rintro ⟨before, ⟨line, place⟩, after, hsplit, hbefore, hline⟩
    obtain ⟨hnone, rfl⟩ := Rule.ofLine_eq_error_iff.1 hline
    exact ⟨before, after, line, place, hsplit, fun l hl => (hok l).1 (hbefore l hl), hnone, rfl⟩
  · rintro ⟨before, after, line, place, hsplit, hbefore, hnone, rfl⟩
    exact ⟨before, (line, place), after, hsplit, fun l hl => (hok l).2 (hbefore l hl),
      Rule.ofLine_eq_error_iff.2 ⟨hnone, rfl⟩⟩

/-! ## Repeated rules -/

/-- What a rule is for: a state and a symbol. -/
def Rule.Parts.pair (p : Parts) : List Char × Char := (p.source, p.read)

theorem Rule.key_toRule_eq_iff {p q : Parts} {line line' : Int} :
    (p.toRule line).key = (q.toRule line').key ↔ p.pair = q.pair := by
  constructor
  · intro h
    obtain ⟨hsource, hread⟩ := lookupKey_singleton_inj h rfl
    exact Prod.ext (String.ofList_injective hsource) hread
  · intro h
    obtain ⟨hsource, hread⟩ := Prod.mk.inj h
    rw [Rule.key, Rule.key, Parts.toRule, Parts.toRule, hsource, hread]

theorem nodup_key_iff (ps : List (Parts × Nat)) :
    ((ps.map fun p => p.1.toRule p.2).map Rule.key).Nodup ↔ (ps.map fun p => p.1.pair).Nodup := by
  simp only [List.Nodup, List.pairwise_map, ne_eq, Rule.key_toRule_eq_iff]

/-- The place of an item in a list is the front, or a place in the rest. -/
theorem exists_split_cons_iff {α : Type} {x y : α} {xs : List α} {P : List α → Prop} :
    (∃ before after, x :: xs = before ++ y :: after ∧ P before) ↔
      (x = y ∧ P []) ∨ ∃ before after, xs = before ++ y :: after ∧ P (x :: before) := by
  constructor
  · rintro ⟨before, after, hsplit, hbefore⟩
    cases before with
    | nil => exact .inl ⟨(List.cons.inj hsplit).1, hbefore⟩
    | cons b before =>
      obtain ⟨rfl, rfl⟩ := List.cons.inj hsplit
      exact .inr ⟨before, after, rfl, hbefore⟩
  · rintro (⟨rfl, hnil⟩ | ⟨before, after, rfl, hbefore⟩)
    · exact ⟨[], xs, rfl, hnil⟩
    · exact ⟨x :: before, after, rfl, hbefore⟩

namespace Program

/-- The map holds these rules by their keys, which differ. -/
structure Remembers (earlier : Std.ExtTreeMap String Rule) (seen : List Rule) : Prop where
  nodup : (seen.map Rule.key).Nodup
  found : ∀ key r, earlier[key]? = some r ↔ r ∈ seen ∧ r.key = key

namespace Remembers

variable {earlier : Std.ExtTreeMap String Rule} {seen : List Rule}

theorem empty : Remembers ∅ [] := ⟨List.nodup_nil, fun key r => by simp⟩

theorem key_ne {r s : Rule} (h : Remembers earlier seen) (hr : earlier[r.key]? = none)
    (hs : s ∈ seen) : s.key ≠ r.key := by
  intro hkey
  rw [(h.found r.key s).2 ⟨hs, hkey⟩] at hr
  contradiction

theorem insert {r : Rule} (h : Remembers earlier seen) (hr : earlier[r.key]? = none) :
    Remembers (earlier.insert r.key r) (seen ++ [r]) := by
  constructor
  · rw [List.map_append, List.nodup_append]
    refine ⟨h.nodup, List.nodup_singleton _, fun k hk l hl => ?_⟩
    obtain ⟨s, hs, rfl⟩ := List.mem_map.1 hk
    rw [List.mem_singleton.1 hl]
    exact h.key_ne hr hs
  · intro key s
    rw [Std.ExtTreeMap.getElem?_insert]
    -- the key of the new rule finds it, any other key what it found before
    split
    · rename_i hkey
      obtain rfl := Std.compare_eq_iff_eq.1 hkey
      constructor
      · intro hs
        obtain rfl := Option.some.inj hs
        exact ⟨by simp, rfl⟩
      · rintro ⟨hs, hkey⟩
        rcases List.mem_append.1 hs with hs | hs
        · exact absurd hkey (h.key_ne hr hs)
        · rw [List.mem_singleton.1 hs]
    · rename_i hkey
      rw [h.found, List.mem_append, List.mem_singleton]
      constructor
      · rintro ⟨hs, rfl⟩
        exact ⟨.inl hs, rfl⟩
      · rintro ⟨hs | rfl, rfl⟩
        · exact ⟨hs, rfl⟩
        · exact absurd (Std.compare_eq_iff_eq.2 rfl) hkey

theorem firstRepeat?_eq_some_iff {first r : Rule} (h : Remembers earlier seen) :
    firstRepeat? earlier rules = some (first, r) ↔ ∃ before after,
      rules = before ++ r :: after ∧ ((seen ++ before).map Rule.key).Nodup ∧
      first ∈ seen ++ before ∧ first.key = r.key := by
  induction rules generalizing earlier seen with
  | nil => simp [firstRepeat?]
  | cons x rest ih =>
    -- the repeat is the first rule, or one behind it
    rw [exists_split_cons_iff]
    unfold firstRepeat?
    split
    · rename_i found hfound
      obtain ⟨hmem, hkey⟩ := (h.found x.key found).1 hfound
      constructor
      · intro heq
        obtain ⟨rfl, rfl⟩ := Prod.mk.inj (Option.some.inj heq)
        exact .inl ⟨rfl, by simpa using h.nodup, by simpa using hmem, hkey⟩
      · rintro (⟨rfl, -, hfirst, hsame⟩ | ⟨before, after, -, hnodup, -⟩)
        · rw [List.append_nil] at hfirst
          rw [(h.found x.key first).2 ⟨hfirst, hsame⟩] at hfound
          rw [Option.some.inj hfound]
        · -- the walk does not go past a rule with a key that was seen
          rw [List.map_append, List.nodup_append] at hnodup
          exact absurd hkey (hnodup.2.2 _ (List.mem_map_of_mem hmem) _ (by simp))
    · rename_i hnone
      rw [ih (h.insert hnone)]
      simp only [List.append_assoc, List.singleton_append]
      constructor
      · exact .inr
      · rintro (⟨rfl, -, hfirst, hsame⟩ | hrest)
        · rw [List.append_nil] at hfirst
          exact absurd hsame (h.key_ne hnone hfirst)
        · exact hrest

end Remembers

/-- The rule that is found is the first one with a key that an earlier rule has. -/
theorem firstRepeat?_eq_some_iff {first r : Rule} :
    firstRepeat? ∅ rules = some (first, r) ↔ ∃ before after,
      rules = before ++ r :: after ∧ (before.map Rule.key).Nodup ∧
      first ∈ before ∧ first.key = r.key := by
  simpa using Remembers.empty.firstRepeat?_eq_some_iff

theorem firstRepeat?_eq_none_iff :
    firstRepeat? ∅ rules = none ↔ (rules.map Rule.key).Nodup := by
  constructor
  · intro h
    exact (nodup_of_firstRepeat? h).1
  · intro hnodup
    by_contra hsome
    obtain ⟨⟨first, r⟩, hfound⟩ := Option.ne_none_iff_exists'.1 hsome
    obtain ⟨before, after, rfl, -, hfirst, hkey⟩ := firstRepeat?_eq_some_iff.1 hfound
    rw [List.map_append, List.nodup_append] at hnodup
    exact hnodup.2.2 _ (List.mem_map_of_mem hfirst) _ (by simp) hkey

end Program

/-! ## Every text has one outcome -/

/-- What is reported about a program text that is refused: a line, if the cause belongs to one, and
the cause in words. -/
structure CompileError.Report where
  line? : Option Int
  detail : String
  deriving DecidableEq, Repr

/-- The report of a cause. -/
def CompileError.report (e : CompileError) : CompileError.Report := ⟨e.line?, e.detail⟩

/-- The transition that a rule with these parts stands for. -/
def Rule.Parts.toTransition (p : Parts) (index : Nat) : Transition where
  source := .ofList p.source
  read := .singleton p.read
  write := .singleton p.write
  move := p.direction.letter
  target := .ofList p.target
  index := index
  label := .singleton p.read ++ "/" ++ .singleton p.write ++ "," ++ p.direction.letter

/-- A text has an outcome: it is refused with a report, or compiled to a program. -/
inductive Compilation (text : String) : Except CompileError.Report Program → Prop
  /-- Some line that is not skipped is no rule, and this is the first of them. -/
  | malformed {before after : List (String × Nat)} {line : String} {place : Nat} :
      ruleLines text = before ++ (line, place) :: after →
      (∀ l ∈ before, ∃ p, SpelledBy l.1 p) → (∀ p, ¬ SpelledBy line p) →
      Compilation text (.error ⟨some (place + 1), "Syntax error in '" ++ Text.strip line ++ "'"⟩)
  /-- No line carries a rule. -/
  | empty : ruleLines text = [] → Compilation text (.error ⟨none, "No valid states found."⟩)
  /-- All lines are rules, and one of them is the first to repeat an earlier state and symbol. -/
  | duplicate {before after : List (Parts × Nat)} {first again : Parts × Nat} :
      ReadsAs text (before ++ again :: after) → (before.map fun p => p.1.pair).Nodup →
      first ∈ before → first.1.pair = again.1.pair →
      Compilation text (.error ⟨some (again.2 + 1),
        "Duplicate transition for (" ++ .ofList again.1.source ++ ", " ++ .singleton again.1.read
          ++ "), already defined on line " ++ toString (first.2 + 1 : Int)⟩)
  /-- There are rules, none repeated, and each makes a transition. -/
  | compiled {ps : List (Parts × Nat)} {program : Program} :
      ReadsAs text ps → ps ≠ [] → (ps.map fun p => p.1.pair).Nodup →
      program.table.transitions = (ps.zipIdx.map fun (p, index) => p.1.toTransition index) →
      program.graph = Graph.ofTable program.table → Compilation text (.ok program)

namespace Program

theorem ofSource_of_ok (h : readRules text = .ok rules) : ofSource text = ofRules rules := by
  rw [ofSource, h]
  rfl

theorem ofSource_of_error {e : CompileError} (h : readRules text = .error e) :
    ofSource text = .error e := by
  rw [ofSource, h]
  rfl

theorem transitions_tableOf (ps : List (Parts × Nat)) :
    (tableOf (ps.map fun p => p.1.toRule p.2)).transitions =
      ps.zipIdx.map fun (p, index) => p.1.toTransition index := by
  rw [tableOf, Table.ofList, List.zipIdx_map, List.map_map]
  rfl

theorem compilation_ofSource (text : String) :
    Compilation text ((ofSource text).mapError CompileError.report) := by
  cases hread : readRules text with
  | error e =>
    obtain ⟨before, after, line, place, hsplit, hbefore, hnone, rfl⟩ :=
      readRules_eq_error_iff.1 hread
    rw [ofSource_of_error hread]
    exact .malformed hsplit hbefore hnone
  | ok rules =>
    rw [ofSource_of_ok hread]
    obtain ⟨ps, hps, rfl⟩ := readRules_eq_ok_iff.1 hread
    -- all lines are rules: there is none, a key is repeated, or the program is compiled
    unfold ofRules
    split
    · rename_i hempty
      obtain rfl := List.map_eq_nil_iff.1 (List.isEmpty_iff.1 hempty)
      exact .empty (List.forall₂_nil_right_iff.1 hps)
    · rename_i hne
      split
      · rename_i first r hrepeat
        obtain ⟨before, after, hsplit, hnodup, hfirst, hkey⟩ := firstRepeat?_eq_some_iff.1 hrepeat
        obtain ⟨qs, rs, rfl, rfl, hrs⟩ := List.map_eq_append_iff.1 hsplit
        obtain ⟨again, rs, rfl, rfl, rfl⟩ := List.map_eq_cons_iff.1 hrs
        obtain ⟨earlier, hearlier, rfl⟩ := List.mem_map.1 hfirst
        exact .duplicate hps ((nodup_key_iff qs).1 hnodup) hearlier (Rule.key_toRule_eq_iff.1 hkey)
      · rename_i hrepeat
        exact .compiled hps (fun hnil => hne (by rw [hnil]; rfl))
          ((nodup_key_iff ps).1 (firstRepeat?_eq_none_iff.1 hrepeat)) (transitions_tableOf ps) rfl

theorem report_ofSource_of_compilation {outcome : Except CompileError.Report Program}
    (h : Compilation text outcome) : (ofSource text).mapError CompileError.report = outcome := by
  cases h with
  | malformed hsplit hbefore hnone =>
    rw [ofSource_of_error (readRules_eq_error_iff.2 ⟨_, _, _, _, hsplit, hbefore, hnone, rfl⟩)]
    rfl
  | empty hnil =>
    have hread : ReadsAs text [] := by
      rw [ReadsAs, hnil]
      exact .nil
    rw [ofSource_of_ok (readRules_eq_ok_iff.2 ⟨[], hread, rfl⟩)]
    rfl
  | @duplicate before after first again hps hnodup hfirst hpair =>
    have hrepeat : firstRepeat? ∅ ((before ++ again :: after).map fun p => p.1.toRule p.2) =
        some (first.1.toRule first.2, again.1.toRule again.2) :=
      firstRepeat?_eq_some_iff.2 ⟨_, _, List.map_append, (nodup_key_iff before).2 hnodup,
        List.mem_map_of_mem hfirst, Rule.key_toRule_eq_iff.2 hpair⟩
    rw [ofSource_of_ok (readRules_eq_ok_iff.2 ⟨_, hps, rfl⟩), ofRules, if_neg (by simp), hrepeat]
    rfl
  | @compiled ps program hps hne hnodup htransitions hgraph =>
    have hrepeat := firstRepeat?_eq_none_iff.2 ((nodup_key_iff ps).2 hnodup)
    rw [ofSource_of_ok (readRules_eq_ok_iff.2 ⟨_, hps, rfl⟩), ofRules, if_neg (by simpa using hne),
      hrepeat]
    obtain ⟨table, graph⟩ := program
    obtain rfl : table = tableOf _ := Table.ext (htransitions.trans (transitions_tableOf ps).symm)
    obtain rfl : graph = Graph.ofTable (tableOf _) := hgraph
    rfl

/-- What becomes of a text is its outcome, and it has no other one. -/
theorem report_ofSource_eq_iff (text : String) (outcome : Except CompileError.Report Program) :
    (ofSource text).mapError CompileError.report = outcome ↔ Compilation text outcome := by
  constructor
  · rintro rfl
    exact compilation_ofSource text
  · exact report_ofSource_of_compilation

/-- A bad line is reported although a repeated rule stands before it. -/
example :
    (ofSource "q0 a/a,R q0\nq0 a/b,R q0\n\nq0").mapError CompileError.report =
      .error ⟨some 4, "Syntax error in 'q0'"⟩ := by
  decide +kernel

/-! ## The numbers in a message -/

theorem place_lt_of_mem_ruleLines {line : String} {place : Nat}
    (h : (line, place) ∈ ruleLines text) : place < (Text.lines text).length :=
  List.snd_lt_of_mem_zipIdx (List.mem_of_mem_filter h)

theorem exists_place_of_mem_readRules {r : Rule} (h : readRules text = .ok rules)
    (hr : r ∈ rules) : ∃ place < (Text.lines text).length, r.line = place := by
  obtain ⟨⟨line, place⟩, hmem, hread⟩ := exists_of_mem_mapM h hr
  obtain ⟨p, -, rfl⟩ := Rule.ofLine_eq_ok_iff.1 hread
  exact ⟨place, place_lt_of_mem_ruleLines hmem, rfl⟩

/-- Every number in a message is that of a line of the text. -/
theorem exists_place_of_mem_lines {e : CompileError} {n : Int} (h : ofSource text = .error e)
    (hn : n ∈ e.lines) : ∃ place < (Text.lines text).length, n = place + 1 := by
  cases hread : readRules text with
  | error e' =>
    rw [ofSource_of_error hread] at h
    obtain rfl := Except.error.inj h
    obtain ⟨before, after, line, place, hsplit, -, -, rfl⟩ := readRules_eq_error_iff.1 hread
    have hmem : (line, place) ∈ ruleLines text := by
      rw [hsplit]
      exact List.mem_append_right before List.mem_cons_self
    exact ⟨place, place_lt_of_mem_ruleLines hmem, List.mem_singleton.1 hn⟩
  | ok rules =>
    rw [ofSource_of_ok hread, ofRules] at h
    split at h
    · obtain rfl := Except.error.inj h
      contradiction
    · split at h
      · rename_i first r hrepeat
        obtain rfl := Except.error.inj h
        obtain ⟨before, after, rfl, -, hfirst, -⟩ := firstRepeat?_eq_some_iff.1 hrepeat
        -- a repeat names two lines
        rcases List.mem_cons.1 hn with rfl | hn
        · obtain ⟨place, hlt, hplace⟩ :=
            exists_place_of_mem_readRules hread (List.mem_append_left _ hfirst)
          exact ⟨place, hlt, by rw [hplace]⟩
        · obtain ⟨place, hlt, hplace⟩ :=
            exists_place_of_mem_readRules hread (List.mem_append_right before List.mem_cons_self)
          exact ⟨place, hlt, by rw [List.mem_singleton.1 hn, hplace]⟩
      · contradiction

/-- So a message about a text can always be written, if the number of its lines can. -/
theorem ofCompile_of_ofSource {e : CompileError} (h : ofSource text = .error e)
    (hlines : Text.Integer.isWritable (Text.lines text).length = true) :
    Fault.ofCompile e = .compile e := by
  refine if_pos (List.all_eq_true.2 fun n hn => ?_)
  obtain ⟨place, hlt, rfl⟩ := exists_place_of_mem_lines h hn
  exact Text.Integer.isWritable_of_le (by omega) hlines

end Program

end TapeMachine
