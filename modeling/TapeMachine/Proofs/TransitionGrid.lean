import Mathlib.Data.List.Permutation
import Mathlib.Data.Set.List
import TapeMachine.Display.Grid
import TapeMachine.Proofs.StatusMarkup

/-!
# The grid shows each rule once

The grid of a compiled program has a row for each state that a rule leaves and a column for each
symbol that one reads. Each rule stands in the cell of its state and its symbol, and the other cells
hold a dash. Escaping changes no rule: what is written stands in front of a comma, so a bracket
there opens no group, and a name ends with no backslash. So the rules can be read back.

## Main results

- `Markup.escape_eq_self`: texts that escaping does not change
- `Grid.pairwise_columns`: the columns are in ascending order, the blank last
- `Grid.perm_shown`: going through the cells row by row meets each transition once
- `Program.isGridOf_of_ofSource`: what the grid of a text that compiles shows
-/

namespace TapeMachine

open Text (CodePoint Loose)

/-! ## Texts that escaping does not change -/

namespace Markup

variable {p c : CodePoint} {ps : List CodePoint}

/-- No group opens in front of a text without brackets. -/
theorem escapeGroups_cons_of_isFree (hfree : isFree ps = true) (p : CodePoint) :
    escapeGroups 0 (p :: ps) = p :: ps := by
  by_cases hslash : p = backslash
  · rw [escapeGroups, if_pos hslash, escapeGroups_of_isFree hfree, hslash]
    rfl
  · have hcloses : opensGroup ps = false := by
      rw [opensGroup_eq, closes_of_isFree hfree, Bool.and_false]
    rw [escapeGroups, if_neg hslash, hcloses, Bool.and_false, escapeGroups_of_isFree hfree]
    rfl

/-- A text is not changed if there is no bracket behind its first character, and no backslash at
its end. -/
theorem escape_eq_self {t : Loose} (ht : t.points = p :: ps) (hfree : isFree ps = true)
    {front : List CodePoint} (hend : t.points = front ++ [c]) (hc : c ≠ backslash) :
    escape t = t := by
  rw [escape, ht, escapeGroups_cons_of_isFree hfree, ← ht, hend, closeEnd_concat hc, ← hend,
    Loose.ofPoints_points]

/-- A symbol is not changed unless it is the backslash, which is doubled. -/
theorem escape_singleton (c : Char) :
    escape (Loose.whole (.singleton c)) =
      .whole (if c = '\\' then "\\\\" else .singleton c) := by
  split
  · rename_i hc
    rw [hc]
    decide +kernel
  · rename_i hc
    have hpoints : (Loose.whole (.singleton c)).points = [.char c] := by simp [Loose.points]
    have hend : (Loose.whole (.singleton c)).points = [] ++ [.char c] := hpoints
    exact escape_eq_self hpoints rfl hend fun h => hc (CodePoint.char.inj h)

end Markup

/-! ## Rules as a grid shows them -/

/-- The rule, wherever it stood. -/
def Rule.unplaced (r : Rule) : Rule := { r with line := 0 }

/-- The rule is for a state and a symbol of one character. -/
def Rule.IsFor (r : Rule) (q : State) (c : Char) : Prop := r.source = q ∧ r.read = .singleton c

/-- The text of a rule in a grid. -/
def Rule.action (r : Rule) : String := r.write ++ "," ++ r.move ++ " " ++ r.target

/-- The rule that a transition was made from, wherever it stood. -/
def Transition.rule (t : Transition) : Rule := ⟨t.source, t.read, t.write, t.move, t.target, 0⟩

namespace Grid

/-- The cell of a state and a symbol that no rule is for. -/
def dash : Cell := .markup "-"

/-- The cells of a grid, row by row, without the names of the states. -/
def cells (d : Drawing) : List Cell := d.rows.flatMap List.tail

/-! ## Reading a grid -/

/-- Reads the text of a cell: a symbol, a comma, a direction, a space and the name of a state. -/
def readAction? : List Char → Option (Symbol × String × State)
  | write :: ',' :: move :: ' ' :: target =>
    some (.singleton write, .singleton move, String.ofList target)
  | _ => none

/-- Reads a header. A backslash is doubled there. -/
def readHeader? (header : Loose) : Option Symbol :=
  header.text?.bind fun s => s.toList.head?.map String.singleton

/-- Reads the rule in a cell, if there is one. -/
def readCell? (source : State) (header : Loose) : Cell → Option Rule
  | .markup (.whole text) => do
    let read ← readHeader? header
    let (write, move, target) ← readAction? text.toList
    some ⟨source, read, write, move, target, 0⟩
  | _ => none

/-- The rules in a row. -/
def rulesInRow (headers : List Loose) : List Cell → List Rule
  | .markup (.whole source) :: cells =>
    (headers.zip cells).filterMap fun (header, cell) => readCell? source header cell
  | _ => []

/-- The rules that a grid shows, row by row. -/
def rulesIn (d : Drawing) : List Rule := d.rows.flatMap (rulesInRow d.headers.tail)

/-- A header stands for its symbol. -/
theorem readHeader?_escape (c : Char) :
    readHeader? (Markup.escape (Loose.whole (.singleton c))) = some (.singleton c) := by
  rw [Markup.escape_singleton, readHeader?]
  by_cases hc : c = '\\'
  · rw [hc]
    decide +kernel
  · simp [Loose.text?, hc]

/-! ## Cells -/

theorem cell_of_matched {table : Table} {q : State} {s : Symbol} {t : Transition}
    (hlookup : table.lookup q (Loose.whole s) = .matched t) :
    cell table q s = .markup (Markup.escape (action t)) := by
  rw [cell, hlookup]

theorem cell_of_unmatched {table : Table} {q : State} {s : Symbol}
    (hnone : ∀ t, table.lookup q (Loose.whole s) ≠ .matched t) : cell table q s = dash := by
  unfold cell
  split
  · rename_i t hlookup
    exact absurd hlookup (hnone t)
  · rfl

section Cells

variable {table : Table} (h : table.IsCompiled)

include h

/-- What an action is made of. -/
theorem exists_toList_action {t : Transition} (ht : t ∈ table.transitions) :
    ∃ w m : Char, ∃ front : List Char, ∃ c : Char, t.write = .singleton w ∧ t.move = .singleton m ∧
      t.target = String.ofList (front ++ [c]) ∧ m ≠ '[' ∧ m ≠ ']' ∧ Rule.Word (front ++ [c]) := by
  obtain ⟨p, hp, line, index, rfl⟩ := h.spelled t ht
  obtain ⟨front, c, hend⟩ := List.eq_nil_or_concat' p.target |>.resolve_left hp.target.1
  have hmove : ∃ m : Char, p.direction.letter = .singleton m ∧ m ≠ '[' ∧ m ≠ ']' := by
    cases p.direction
    · exact ⟨'L', rfl, by decide, by decide⟩
    · exact ⟨'R', rfl, by decide, by decide⟩
    · exact ⟨'S', rfl, by decide, by decide⟩
  obtain ⟨m, hm, hopening, hclosing⟩ := hmove
  have hword := hp.target
  rw [hend] at hword
  exact ⟨p.write, m, front, c, rfl, hm, congrArg String.ofList hend, hopening, hclosing, hword⟩

/-- Escaping changes no action. -/
theorem escape_action {t : Transition} (ht : t ∈ table.transitions) :
    Markup.escape (action t) = action t := by
  obtain ⟨w, m, front, c, hwrite, hmove, htarget, hopening, hclosing, hword⟩ :=
    exists_toList_action h ht
  have hpoints : (Loose.whole (action t)).points = .char w ::
      ((Loose.whole ("," ++ t.move ++ " ")).points ++ (Loose.whole t.target).points) := by
    simp [action, hwrite, Markup.points_whole]
  have hfree : Markup.isFree
      ((Loose.whole ("," ++ t.move ++ " ")).points ++ (Loose.whole t.target).points) = true := by
    have htarget : Markup.IsPlain (Loose.whole t.target).points := by
      apply Markup.isPlain_of_word
      rwa [htarget, String.toList_ofList]
    have hmiddle : Markup.isFree (Loose.whole ("," ++ t.move ++ " ")).points = true := by
      simp [hmove, Markup.points_whole, Markup.isFree, Markup.opening, Markup.closing, hopening,
        hclosing]
    rw [Markup.isFree_append, hmiddle, htarget.isFree]
    rfl
  have hend : ∃ before, (Loose.whole (action t)).points = before ++ [.char c] :=
    ⟨(Loose.whole (t.write ++ "," ++ t.move ++ " " ++ String.ofList front)).points, by
      simp [action, htarget, Markup.points_whole]⟩
  obtain ⟨before, hbefore⟩ := hend
  refine Markup.escape_eq_self hpoints hfree hbefore fun hslash => ?_
  -- a word holds no backslash
  refine hword.not_mem (c := '\\') (by decide) ?_
  rw [← CodePoint.char.inj hslash]
  simp

/-- The cell of a transition does not hold a dash, and the action can be read from it. -/
theorem readAction?_action {t : Transition} (ht : t ∈ table.transitions) :
    readAction? (action t).toList = some (t.write, t.move, t.target) := by
  obtain ⟨w, m, front, c, hwrite, hmove, htarget, -⟩ := exists_toList_action h ht
  simp [action, hwrite, hmove, htarget, readAction?]

theorem escape_action_ne_dash {t : Transition} (ht : t ∈ table.transitions) :
    Cell.markup (Markup.escape (action t)) ≠ dash := by
  intro heq
  rw [escape_action h ht] at heq
  have haction : action t = "-" := Loose.whole.inj (Cell.markup.inj heq)
  have hread := readAction?_action h ht
  rw [haction] at hread
  contradiction

/-- What is found for a state and a symbol. -/
theorem lookup_eq_matched_iff {q : State} {c : Char} {t : Transition} :
    table.lookup q (Loose.whole (.singleton c)) = .matched t ↔
      t ∈ table.transitions ∧ t.source = q ∧ t.read = .singleton c := by
  rw [← Loose.ofPoints_char, h.lookup_eq_matched_iff, Loose.ofPoints_char, Loose.whole.injEq]

/-- The transition for a state and a symbol is read from its cell. -/
theorem readCell?_cell (q : State) (c : Char) :
    readCell? q (Markup.escape (Loose.whole (.singleton c))) (cell table q (.singleton c)) =
      (table.lookup q (Loose.whole (.singleton c))).transition?.map Transition.rule := by
  cases hlookup : table.lookup q (Loose.whole (.singleton c)) with
  | matched t =>
    obtain ⟨ht, hsource, hread⟩ := (lookup_eq_matched_iff h).1 hlookup
    rw [cell_of_matched hlookup, escape_action h ht]
    simp [readCell?, readHeader?_escape, readAction?_action h ht, Transition.rule,
      Lookup.transition?, hsource, hread]
  | implicitAccept =>
    rw [cell_of_unmatched (by simp [hlookup])]
    simp [readCell?, dash, readAction?, Lookup.transition?]
  | implicitReject =>
    rw [cell_of_unmatched (by simp [hlookup])]
    simp [readCell?, dash, readAction?, Lookup.transition?]

end Cells

/-! ## Columns -/

theorem columnLE_trans (a b c : Symbol) (hab : columnLE a b) (hbc : columnLE b c) :
    columnLE a c := by
  unfold columnLE at *
  by_cases ha : a = blank <;> by_cases hb : b = blank <;> by_cases hc : c = blank <;>
    simp_all
  exact String.le_trans hab hbc

theorem columnLE_total (a b : Symbol) : columnLE a b || columnLE b a := by
  unfold columnLE
  by_cases ha : a = blank <;> by_cases hb : b = blank <;> simp [ha, hb]
  exact String.le_total a b

theorem mem_columns {table : Table} {s : Symbol} :
    s ∈ columns table ↔ ∃ t ∈ table.transitions, t.read = s := by
  rw [columns, List.mem_mergeSort, mem_distinct, List.mem_map]

theorem mem_states {table : Table} {q : State} :
    q ∈ states table ↔ ∃ t ∈ table.transitions, t.source = q := by
  rw [states, mem_distinct, List.mem_map]

/-- The columns are in ascending order, the blank last. -/
theorem pairwise_columns (table : Table) :
    (columns table).Pairwise fun a b => a ≠ blank ∧ (b = blank ∨ a < b) := by
  have hordered : (columns table).Pairwise fun a b => columnLE a b :=
    List.pairwise_mergeSort columnLE_trans columnLE_total _
  have hnodup : (columns table).Nodup := (List.mergeSort_perm _ _).nodup_iff.2 (nodup_distinct _)
  refine (hordered.and hnodup).imp fun {a b} hab => ?_
  obtain ⟨hle, hne⟩ := hab
  unfold columnLE at hle
  by_cases ha : a = blank
  · rw [if_pos ha, beq_iff_eq] at hle
    exact absurd (ha.trans hle.symm) hne
  · rw [if_neg ha, Bool.or_eq_true, beq_iff_eq, decide_eq_true_eq] at hle
    exact ⟨ha, hle.imp_right fun hle => String.not_le.1 fun hge => hne (String.le_antisymm hle hge)⟩

/-- The columns of a compiled table are characters, in ascending order with the blank last. -/
theorem exists_columns_eq {table : Table} (h : table.IsCompiled) :
    ∃ symbols : List Char, columns table = symbols.map String.singleton ∧
      symbols.Pairwise fun c c' => c ≠ blankChar ∧ (c' = blankChar ∨ c < c') := by
  have hrange : columns table ∈ Set.range (List.map String.singleton) := by
    rw [Set.range_list_map]
    intro s hs
    obtain ⟨t, ht, rfl⟩ := mem_columns.1 hs
    obtain ⟨c, -, hread, -⟩ := h.exists_symbols ht
    exact ⟨c, hread.symm⟩
  obtain ⟨symbols, hsymbols⟩ := hrange
  refine ⟨symbols, hsymbols.symm, ?_⟩
  -- the order of the columns in characters
  have hblank : ∀ c : Char, String.singleton c = blank ↔ c = blankChar := by
    intro c
    rw [show blank = String.singleton blankChar from rfl, String.singleton_inj]
  have hlt : ∀ c c' : Char, String.singleton c < String.singleton c' ↔ c < c' := by
    intro c c'
    show (String.singleton c).toList < (String.singleton c').toList ↔ _
    simp [List.cons_lt_cons_iff]
  have hordered := pairwise_columns table
  rw [← hsymbols, List.pairwise_map] at hordered
  refine hordered.imp fun {c c'} hcc => ?_
  rwa [ne_eq, hblank, hblank, hlt] at hcc

/-! ## Each transition once -/

section Shown

variable {table : Table} {symbols : List Char}

/-- The transitions that are met in the cells, row by row. -/
def shown (table : Table) (symbols : List Char) : List Transition :=
  (states table).flatMap fun q =>
    symbols.filterMap fun c => (table.lookup q (Loose.whole (.singleton c))).transition?

/-- Going through the cells row by row meets each transition once. -/
theorem perm_shown (h : table.IsCompiled) (hsymbols : columns table = symbols.map String.singleton)
    (hnodup : symbols.Nodup) : (shown table symbols).Perm table.transitions := by
  have hmem : ∀ q c t, t ∈ (table.lookup q (Loose.whole (.singleton c))).transition? ↔
      t ∈ table.transitions ∧ t.source = q ∧ t.read = .singleton c := by
    intro q c t
    rw [← lookup_eq_matched_iff h]
    cases table.lookup q (Loose.whole (.singleton c)) <;> simp [Lookup.transition?]
  apply (List.perm_ext_iff_of_nodup ?_ h.nodup.of_map).2
  · intro t
    simp only [shown, List.mem_flatMap, List.mem_filterMap]
    constructor
    · rintro ⟨q, -, c, -, ht⟩
      exact ((hmem q c t).1 ht).1
    · intro ht
      obtain ⟨c, -, hread, -⟩ := h.exists_symbols ht
      have hcolumn : t.read ∈ columns table := mem_columns.2 ⟨t, ht, rfl⟩
      rw [hsymbols, hread, List.mem_map_of_injective fun _ _ => String.singleton_inj.1] at hcolumn
      exact ⟨t.source, mem_states.2 ⟨t, ht, rfl⟩, c, hcolumn, (hmem _ c t).2 ⟨ht, rfl, hread⟩⟩
  · apply List.nodup_flatMap.2
    refine ⟨fun q _ => ?_, ?_⟩
    · -- a transition stands in the column of the symbol that it reads
      apply hnodup.filterMap
      intro c c' t hc hc'
      exact String.singleton_inj.1 (((hmem q c t).1 hc).2.2.symm.trans ((hmem q c' t).1 hc').2.2)
    · -- and in the row of the state that it leaves
      refine (nodup_distinct _).imp fun {q q'} hne t ht ht' => hne ?_
      obtain ⟨c, -, hc⟩ := List.mem_filterMap.1 ht
      obtain ⟨c', -, hc'⟩ := List.mem_filterMap.1 ht'
      exact ((hmem q c t).1 hc).2.1.symm.trans ((hmem q' c' t).1 hc').2.1

/-- The cells of a row that hold no dash are those of the transitions met there. -/
theorem filter_row (h : table.IsCompiled) (q : State) (symbols : List Char) :
    (symbols.map fun c => cell table q (.singleton c)).filter (· ≠ dash) =
      (symbols.filterMap fun c => (table.lookup q (Loose.whole (.singleton c))).transition?).map
        fun t => .markup (Markup.escape (action t)) := by
  induction symbols with
  | nil => rfl
  | cons c rest ih =>
    rw [List.map_cons, List.filter_cons, ih, List.filterMap_cons]
    cases hlookup : table.lookup q (Loose.whole (.singleton c)) with
    | matched t =>
      have ht := ((lookup_eq_matched_iff h).1 hlookup).1
      simp [cell_of_matched hlookup, Lookup.transition?, escape_action_ne_dash h ht]
    | implicitAccept =>
      rw [cell_of_unmatched (by simp [hlookup])]
      simp [Lookup.transition?]
    | implicitReject =>
      rw [cell_of_unmatched (by simp [hlookup])]
      simp [Lookup.transition?]

/-- The rules in a row are those of the transitions met there. -/
theorem rulesInRow_cells (h : table.IsCompiled) (q : State) (symbols : List Char) :
    rulesInRow (symbols.map fun c => Markup.escape (Loose.whole (.singleton c)))
        (.markup q :: symbols.map fun c => cell table q (.singleton c)) =
      (symbols.filterMap fun c => (table.lookup q (Loose.whole (.singleton c))).transition?).map
        Transition.rule := by
  rw [rulesInRow, List.zip_map', List.filterMap_map, List.map_filterMap]
  simp only [Function.comp_def, readCell?_cell h]

end Shown

/-! ## What a grid shows -/

/-- What the cell of a state and a symbol shows: the rule for the two, or a dash if there is none. -/
structure ShowsRule (rules : List Rule) (q : State) (c : Char) (cell : Cell) : Prop where
  eq_of_isFor : ∀ r ∈ rules, r.IsFor q c → cell = .markup (Markup.escape r.action)
  eq_dash_iff : cell = dash ↔ ∀ r ∈ rules, ¬ r.IsFor q c

/-- How a grid of rules is laid out: a row for each state that a rule leaves, in order of first
appearance, and a column for each symbol that one reads, in ascending order with the blank last. -/
structure LaysOut (d : Drawing) (rules : List Rule) (rows : List State) (columns : List Char) :
    Prop where
  mem_rows : ∀ q, q ∈ rows ↔ ∃ r ∈ rules, r.source = q
  rows_ordered : rows.Pairwise fun q q' =>
    (rules.map Rule.source).idxOf q < (rules.map Rule.source).idxOf q'
  mem_columns : ∀ c, c ∈ columns ↔ ∃ r ∈ rules, r.read = .singleton c
  columns_ordered : columns.Pairwise fun c c' => c ≠ blankChar ∧ (c' = blankChar ∨ c < c')
  headers_eq : d.headers =
    Loose.whole "State" :: columns.map fun c => Markup.escape (Loose.whole (.singleton c))
  shows : List.Forall₂ (fun q row => ∃ cells, row = Cell.markup (Loose.whole q) :: cells ∧
    List.Forall₂ (ShowsRule rules q) columns cells) rows d.rows

/-- A grid shows the rules, each once, and nothing else. -/
structure IsGridOf (d : Drawing) (rules : List Rule) : Prop where
  laidOut : ∃ rows columns, LaysOut d rules rows columns
  unique : ∀ q c, ∀ r ∈ rules, ∀ r' ∈ rules, r.IsFor q c → r'.IsFor q c → r = r'
  perm_cells : ((cells d).filter (· ≠ dash)).Perm
    (rules.map fun r => .markup (Markup.escape r.action))
  length_cells : ((cells d).filter (· ≠ dash)).length = rules.length
  perm_rulesIn : (rulesIn d).Perm (rules.map Rule.unplaced)

end Grid

namespace Program

open Grid

variable {rules : List Rule}

theorem action_ofRule (r : Rule) (index : Nat) : action (.ofRule r index) = r.action := rfl

/-- The cell for a state and a symbol shows the rule for the two. -/
theorem showsRule_cell (h : (tableOf rules).IsCompiled) (q : State) (c : Char) :
    ShowsRule rules q c (cell (tableOf rules) q (.singleton c)) := by
  -- the rule for the cell is the one that the table finds
  have hcell : ∀ r ∈ rules, r.IsFor q c →
      cell (tableOf rules) q (.singleton c) = .markup (Markup.escape r.action) ∧
        cell (tableOf rules) q (.singleton c) ≠ dash := by
    intro r hr hfor
    obtain ⟨index, ht⟩ := exists_ofRule_mem hr
    have hlookup := (lookup_eq_matched_iff h).2 ⟨ht, hfor.1, hfor.2⟩
    have hne := escape_action_ne_dash h ht
    rw [action_ofRule] at hne
    rw [cell_of_matched hlookup, action_ofRule]
    exact ⟨rfl, hne⟩
  refine ⟨fun r hr hfor => (hcell r hr hfor).1, ?_, fun hnone => ?_⟩
  · intro hdash r hr hfor
    exact (hcell r hr hfor).2 hdash
  · apply cell_of_unmatched
    intro t hlookup
    obtain ⟨ht, hsource, hread⟩ := (lookup_eq_matched_iff h).1 hlookup
    obtain ⟨r, hr, index, rfl⟩ := exists_rule_of_mem ht
    exact hnone r hr ⟨hsource, hread⟩

/-- How the grid of a table of rules is laid out. -/
theorem laysOut_tableOf (h : (tableOf rules).IsCompiled) {symbols : List Char}
    (hsymbols : columns (tableOf rules) = symbols.map String.singleton)
    (hordered : symbols.Pairwise fun c c' => c ≠ blankChar ∧ (c' = blankChar ∨ c < c')) :
    LaysOut (tableOf rules).grid rules (states (tableOf rules)) symbols where
  mem_rows q := by
    rw [states, map_transitions_tableOf (g := Rule.source) fun _ _ => rfl, mem_distinct,
      List.mem_map]
  rows_ordered := by
    rw [states, map_transitions_tableOf (g := Rule.source) fun _ _ => rfl]
    exact pairwise_idxOf_distinct _
  mem_columns c := by
    rw [← List.mem_map_of_injective (f := String.singleton) fun _ _ => String.singleton_inj.1,
      ← hsymbols, columns, map_transitions_tableOf (g := Rule.read) fun _ _ => rfl,
      List.mem_mergeSort, mem_distinct, List.mem_map]
  columns_ordered := hordered
  headers_eq := by
    simp only [Table.grid, hsymbols, List.map_map, Function.comp_def]
  shows := by
    rw [Table.grid, hsymbols, List.forall₂_map_right_iff]
    apply List.forall₂_same.2
    intro q _
    refine ⟨_, rfl, ?_⟩
    rw [List.map_map, List.forall₂_map_right_iff]
    exact List.forall₂_same.2 fun c _ => showsRule_cell h q c

/-- What the grid of a table of rules shows. -/
theorem isGridOf_tableOf (h : (tableOf rules).IsCompiled) : IsGridOf (tableOf rules).grid rules := by
  obtain ⟨symbols, hsymbols, hordered⟩ := exists_columns_eq h
  have hnodup : symbols.Nodup := by
    refine hordered.imp fun {c c'} hcc => ?_
    rintro rfl
    exact hcc.2.elim hcc.1 (Char.lt_irrefl c)
  have hshown := perm_shown h hsymbols hnodup
  -- row by row, the cells without a dash show the actions
  have hcells : (cells (tableOf rules).grid).filter (· ≠ dash) =
      (shown (tableOf rules) symbols).map fun t => .markup (Markup.escape (action t)) := by
    rw [cells, Table.grid, shown, List.flatMap_map, List.filter_flatMap, List.map_flatMap]
    refine List.flatMap_congr fun q _ => ?_
    rw [hsymbols, List.tail_cons, List.map_map]
    exact filter_row h q symbols
  have hperm : ((cells (tableOf rules).grid).filter (· ≠ dash)).Perm
      (rules.map fun r => .markup (Markup.escape r.action)) := by
    rw [hcells, ← map_transitions_tableOf (f := fun t => Cell.markup (Markup.escape (action t)))
      (fun r index => by rw [action_ofRule]) rules]
    exact hshown.map _
  have hrules : rulesIn (tableOf rules).grid =
      (shown (tableOf rules) symbols).map Transition.rule := by
    rw [rulesIn, Table.grid, shown, List.flatMap_map, List.map_flatMap]
    refine List.flatMap_congr fun q _ => ?_
    simp only [hsymbols, List.tail_cons, List.map_map, Function.comp_def, rulesInRow_cells h]
  -- two rules for one cell would have one key
  refine ⟨⟨_, _, laysOut_tableOf h hsymbols hordered⟩, ?_, hperm, ?_, ?_⟩
  · intro q c r hr r' hr' hfor hfor'
    have hkeys : (rules.map Rule.key).Nodup := keys_tableOf rules ▸ h.nodup
    refine List.inj_on_of_nodup_map hkeys hr hr' ?_
    rw [Rule.key, Rule.key, hfor.1, hfor.2, hfor'.1, hfor'.2]
  · rw [hperm.length_eq, List.length_map]
  · rw [hrules, ← map_transitions_tableOf (f := Transition.rule) (fun _ _ => rfl) rules]
    exact hshown.map _

/-- The grid of a text that compiles shows the rules in the text. -/
theorem isGridOf_of_ofSource {source : String} {program : Program}
    (h : ofSource source = .ok program) :
    ∃ rules, TapeMachine.readRules source = .ok rules ∧ IsGridOf program.table.grid rules := by
  have hcompiled := isCompiled_of_ofSource h
  obtain ⟨rules, hread, -, rfl⟩ := ofSource_eq_ok h
  exact ⟨rules, hread, isGridOf_tableOf hcompiled⟩

/-- A program whose symbols are those that the grid is written with. -/
def signsSource : String := "q1 _/[,R q0\nq0 \\/-,L q1\nq1 [/\\,S ha\nq0 -/_,R q0"

/-- The program of that text. -/
def signsProgram : Program :=
  let table := tableOf [⟨"q1", "_", "[", "R", "q0", 0⟩, ⟨"q0", "\\", "-", "L", "q1", 1⟩,
    ⟨"q1", "[", "\\", "S", "ha", 2⟩, ⟨"q0", "-", "_", "R", "q0", 3⟩]
  ⟨table, Graph.ofTable table⟩

theorem isGridOf_of_ofSource_signs :
    ofSource signsSource = .ok signsProgram ∧
      (∃ rules, readRules signsSource = .ok rules ∧ IsGridOf signsProgram.table.grid rules) ∧
      signsProgram.table.grid =
        ⟨some "Transition Table", ["State", "-", "[", "\\\\", "_"],
          [[.markup "q1", dash, .markup "\\,S ha", dash, .markup "[,R q0"],
            [.markup "q0", .markup "_,R q0", dash, .markup "-,L q1", dash]]⟩ := by
  have hsource : ofSource signsSource = .ok signsProgram := by decide +kernel
  exact ⟨hsource, isGridOf_of_ofSource hsource, by cbv⟩

end Program

end TapeMachine
