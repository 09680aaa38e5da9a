import TapeMachine.Display.MachineView
import TapeMachine.Proofs.DiagramAgreement
import TapeMachine.Proofs.LiveMarkup

/-!
# Tags in the status line

The status line is written with tags of its own, and the texts of the user stand in it escaped. What
the console reads as a tag is still more than that in one case: an input may end within a group, and
the label of the next transition may begin with the bracket that closes it. Each of the two was
escaped by itself.

## Main results

- `plain_state`: the name of the state of a machine with a compiled program holds no bracket
- `closes_label_iff`: which labels close a group
- `tags_of_statusLine`: the tags of a status line, and when there is one too many
-/

namespace TapeMachine

namespace Markup

open Text (CodePoint Loose)

/-- The groups of a text that the console reads as tags. -/
def tagsOf (t : Loose) : List Loose := (liveGroups 0 t.points).map .ofPoints

/-- Does a text end within a group that would be live if it were closed? -/
def leavesOpen (t : Loose) : Bool := (unclosed? 0 t.points).isSome

theorem IsTagName.slash {name : List CodePoint} (h : IsTagName name) :
    IsTagName (.char '/' :: name) :=
  ⟨rfl, List.forall_mem_cons.2 ⟨by decide, h.plain⟩⟩

theorem points_whole (s : String) : (Loose.whole s).points = s.toList.map .char := rfl

theorem points_tagged (style : String) (text : Loose) :
    (tagged style text).points = tag (Loose.whole style).points ++
      (text.points ++ tag (.char '/' :: (Loose.whole style).points)) := by
  simp [tagged, tag, points_whole, opening, closing]

/-- Two tags with a text between them that neither begins a group nor escapes one. -/
theorem liveGroups_tagged_append {style : String} (hstyle : IsTagName (Loose.whole style).points)
    {text : Loose} (htext : ∀ back, startsTag back = false → closes back = false →
      liveGroups 0 (text.points ++ back) = liveGroups 0 back) (back : List CodePoint) :
    liveGroups 0 ((tagged style text).points ++ back) =
      tag (Loose.whole style).points :: tag (.char '/' :: (Loose.whole style).points) ::
        liveGroups 0 back := by
  rw [points_tagged, List.append_assoc, List.append_assoc, liveGroups_tag_append hstyle,
    htext _ rfl rfl, liveGroups_tag_append hstyle.slash]

/-! ## Plain texts -/

theorem isPlain_whole {s : String} (hopening : '[' ∉ s.toList) (hclosing : ']' ∉ s.toList)
    (hslash : '\\' ∉ s.toList) : IsPlain (Loose.whole s).points := by
  intro p hp
  obtain ⟨c, hc, rfl⟩ := List.mem_map.1 hp
  have hne : ∀ d, d ∉ s.toList → CodePoint.char c ≠ .char d := by
    intro d hd h
    obtain rfl := CodePoint.char.inj h
    exact hd hc
  exact ⟨hne _ hopening, hne _ hclosing, hne _ hslash⟩

theorem isPlain_toString (n : Nat) : IsPlain (Loose.whole (toString (n : Int))).points := by
  have hdigits : (toString (n : Int)).toList = Nat.toDigits 10 n := Nat.toList_repr
  have hnone : ∀ {c : Char}, c.isDigit = false → c ∉ (toString (n : Int)).toList := by
    intro c hc
    rw [hdigits]
    exact Graph.Mermaid.not_mem_toDigits hc n
  exact isPlain_whole (hnone rfl) (hnone rfl) (hnone rfl)

theorem isPlain_of_word {name : String} (h : Rule.Word name.toList) :
    IsPlain (Loose.whole name).points :=
  isPlain_whole (h.not_mem (by decide)) (h.not_mem (by decide)) (h.not_mem (by decide))

end Markup

/-! ## Labels -/

open Text (CodePoint Loose)

namespace Table.IsCompiled

variable {table : Table} {t : Transition}

/-- What a label is made of. -/
theorem exists_points_label (h : table.IsCompiled) (ht : t ∈ table.transitions) :
    ∃ r w d : Char, t.read = .singleton r ∧ t.write = .singleton w ∧ d ≠ '\\' ∧ d ≠ ']' ∧
      (Loose.whole t.label).points = [.char r, .char '/', .char w, .char ',', .char d] := by
  obtain ⟨p, -, line, index, rfl⟩ := h.spelled t ht
  have hpoints : (Loose.whole (Transition.ofRule (p.toRule line) index).label).points =
      .char p.read :: .char '/' :: .char p.write :: .char ',' ::
        p.direction.letter.toList.map .char := by
    simp [Transition.ofRule, Rule.Parts.toRule, Rule.label, Markup.points_whole]
  rw [hpoints]
  cases p.direction
  · exact ⟨p.read, p.write, 'L', rfl, rfl, by decide, by decide, rfl⟩
  · exact ⟨p.read, p.write, 'R', rfl, rfl, by decide, by decide, rfl⟩
  · exact ⟨p.read, p.write, 'S', rfl, rfl, by decide, by decide, rfl⟩

/-- A label closes a group if its first bracket is a closing one. -/
theorem closes_label_iff (h : table.IsCompiled) (ht : t ∈ table.transitions) :
    Markup.closes (Loose.whole t.label).points = true ↔
      t.read = "]" ∨ t.read ≠ "[" ∧ t.write = "]" := by
  obtain ⟨r, w, d, hr, hw, -, hd, hpoints⟩ := h.exists_points_label ht
  have hsymbol : ∀ c c' : Char, String.singleton c = .singleton c' ↔ c = c' := by simp
  rw [hpoints, hr, hw, show ("]" : String) = .singleton ']' from rfl,
    show ("[" : String) = .singleton '[' from rfl, hsymbol, ne_eq, hsymbol, hsymbol]
  simp only [Markup.closes, Markup.opening, Markup.closing, CodePoint.char.injEq, hd]
  by_cases hclosing : r = ']'
  · simp [hclosing]
  · by_cases hopening : r = '[' <;> simp [hclosing, hopening]

/-- The name of a transition and where it goes hold no tag, and close a group if the label does. -/
theorem tags_next (h : table.IsCompiled) (ht : t ∈ table.transitions) (n : Nat) :
    let next : Loose :=
      "  next=#" ++ toString (n : Int) ++ " " ++ Markup.escape t.label ++ " -> " ++ t.target
    Markup.liveGroups 0 next.points = [] ∧
      Markup.closes next.points = Markup.closes (Loose.whole t.label).points := by
  intro next
  have hword : Rule.Word t.target.toList := by
    obtain ⟨p, hp, line, index, rfl⟩ := h.spelled t ht
    simpa [Transition.ofRule, Rule.Parts.toRule] using hp.target
  have hfront : Markup.IsPlain ((Loose.whole "  next=#").points ++
      ((Loose.whole (toString (n : Int))).points ++ (Loose.whole " ").points)) :=
    .append (by decide) (.append (Markup.isPlain_toString n) (by decide))
  have hback : Markup.IsPlain ((Loose.whole " -> ").points ++ (Loose.whole t.target).points) :=
    .append (by decide) (Markup.isPlain_of_word hword)
  -- the label stands between two pieces without brackets
  have hnext : next.points =
      ((Loose.whole "  next=#").points ++
        ((Loose.whole (toString (n : Int))).points ++ (Loose.whole " ").points)) ++
      ((Markup.escape t.label).points ++
        ((Loose.whole " -> ").points ++ (Loose.whole t.target).points)) := by
    simp only [next, Loose.points_append, List.append_assoc]
  have hcloses := Markup.closes_of_isFree hback.isFree
  obtain ⟨r, w, d, -, -, hslash, -, hpoints⟩ := h.exists_points_label ht
  have hlast : (Loose.whole t.label).points =
      [.char r, .char '/', .char w, .char ','] ++ [.char d] := hpoints
  have hend : CodePoint.char d ≠ Markup.backslash := fun heq => hslash (CodePoint.char.inj heq)
  rw [hnext, Markup.liveGroups_plain_append hfront, Markup.closes_plain_append hfront]
  constructor
  · rw [Markup.liveGroups_escape_append hlast hend rfl hcloses]
    exact (Markup.liveGroups_of_isFree hback.isFree 0).1
  · rw [Markup.closes_append, hcloses, Bool.and_false, Bool.or_false, Markup.closes_escape]

end Table.IsCompiled

namespace Machine

variable {m : Machine}

/-! ## The parts of the line -/

/-- The numbers in the status line are short enough to be written. -/
structure NumbersWritable (m : Machine) : Prop where
  head : Text.Integer.isWritable m.head = true
  steps : Text.Integer.isWritable m.stepCount = true
  next : ∀ t, m.activeTransition? = some t → Text.Integer.isWritable t.index = true

/-- The tags around the status and the state. -/
def statusTags (m : Machine) : List Loose :=
  ["[bold " ++ m.status.colour ++ "]", "[/bold " ++ m.status.colour ++ "]", "[bold]", "[/bold]"]

/-- The tags around the reason why the machine rejected. -/
def errorTags (m : Machine) : List Loose := if m.lastError.isSome then ["[red]", "[/red]"] else []

/-- The input ends within a group, and the first bracket in the label of the next transition is the
one that closes it. -/
def Spills (m : Machine) : Prop :=
  Markup.leavesOpen m.input = true ∧
    ∃ t, m.activeTransition? = some t ∧ (t.read = "]" ∨ t.read ≠ "[" ∧ t.write = "]")

/-- A state is a word, whether it is the first one or a node of the graph. -/
theorem IsSound.word_state (h : m.IsSound) (hg : m.graph.IsCompiled) :
    Rule.Word m.state.toList := by
  cases hcount : m.stepCount with
  | zero =>
    rw [h.located.start hcount]
    show Rule.Word ['q', '0']
    exact ⟨nofun, List.forall_mem_cons.2 ⟨by decide, List.forall_mem_singleton.2 (by decide)⟩⟩
  | succ n => exact hg.word _ (h.located.node (by omega))

theorem exists_headText (h : m.NumbersWritable) :
    ∃ head : String, m.headText = .ok head ∧ Markup.IsPlain (Loose.whole head).points := by
  unfold headText
  split
  · split
    · exact ⟨_, rfl, by decide⟩
    · exact ⟨_, rfl, by decide⟩
  · exact ⟨_, Text.Integer.written_eq_ok_iff.2 ⟨h.head, rfl⟩, Markup.isPlain_toString m.head⟩

/-- A message does not end with a backslash. -/
theorem exists_points_message (why : Rejection) :
    ∃ front p, why.message.points = front ++ [p] ∧ p ≠ Markup.backslash := by
  cases why with
  | noTransition state mark =>
    refine ⟨_, .char ')', Loose.points_append _ _, by decide⟩
  | leftEnd =>
    exact ⟨"Crash: head moved past the left end of the tape".toList.map .char, .char '.',
      by decide +kernel, by decide⟩

/-- The tags of the error are those around it, and it begins with one of them. -/
theorem tags_errorText (m : Machine) :
    (Markup.liveGroups 0 m.errorText.points).map .ofPoints = m.errorTags ∧
      Markup.closes m.errorText.points = false := by
  unfold errorText errorTags
  cases m.lastError with
  | none => exact ⟨rfl, rfl⟩
  | some why =>
    obtain ⟨front, p, hpoints, hp⟩ := exists_points_message why
    -- a line break, and then the message between tags
    have hred : Markup.IsTagName (Loose.whole "red").points := ⟨by decide, by decide⟩
    have hline : (Loose.whole "\n" ++ Markup.tagged "red" (Markup.escape why.message)).points =
        [.char '\n'] ++ ((Markup.tagged "red" (Markup.escape why.message)).points ++ []) := by
      rw [Loose.points_append, List.append_nil]
      rfl
    show (Markup.liveGroups 0 (Loose.whole "\n" ++ _).points).map _ = _ ∧
      Markup.closes (Loose.whole "\n" ++ _).points = false
    rw [hline, Markup.liveGroups_plain_append (by decide), Markup.closes_plain_append (by decide),
      Markup.liveGroups_tagged_append hred
        fun back => Markup.liveGroups_escape_append hpoints hp, Markup.points_tagged]
    refine ⟨?_, rfl⟩
    show _ = [Loose.whole "[red]", Loose.whole "[/red]"]
    decide +kernel

/-- What follows the input holds no tags but those around the error. It closes a group if the label
of the next transition does. -/
theorem exists_nextText {source : String} {program : Program}
    (hsource : Program.ofSource source = .ok program) (htable : m.table = program.table)
    (hsound : m.IsSound) (h : m.NumbersWritable) :
    ∃ next, m.nextText = .ok next ∧
      (Markup.liveGroups 0 (next.points ++ m.errorText.points)).map .ofPoints = m.errorTags ∧
      (Markup.closes (next.points ++ m.errorText.points) = true ↔
        ∃ t, m.activeTransition? = some t ∧ (t.read = "]" ∨ t.read ≠ "[" ∧ t.write = "]")) := by
  unfold nextText
  cases hactive : m.activeTransition? with
  | none =>
    obtain ⟨htags, hcloses⟩ := m.tags_errorText
    refine ⟨_, rfl, htags, ?_⟩
    show Markup.closes m.errorText.points = true ↔ _
    simp [hcloses]
  | some t =>
    obtain ⟨hm, hlookup⟩ := activeTransition?_eq_some.1 hactive
    have ht : t ∈ program.table.transitions := htable ▸ (Table.lookup_matched hlookup).1
    have hcompiled := Program.isCompiled_of_ofSource hsource
    -- the index of a compiled transition is a place, so it is no negative number
    obtain ⟨k, -, hindex⟩ := Program.exists_place_of_mem hsource ht
    have hwritten : Text.Integer.written t.index = .ok (toString (k : Int)) := by
      rw [hindex]
      exact Text.Integer.written_eq_ok_iff.2 ⟨hindex ▸ h.next t hactive, rfl⟩
    -- a machine that can go on has no error
    have herror : m.errorText = "" := by
      rw [errorText, hsound.lastError_eq_none hm]
    have htags : m.errorTags = [] := by
      rw [errorTags, hsound.lastError_eq_none hm]
      rfl
    obtain ⟨hgroups, hcloses⟩ := hcompiled.tags_next ht k
    refine ⟨_, by simp only [hwritten]; rfl, ?_⟩
    rw [herror, htags, show (Loose.whole "").points = [] from rfl, List.append_nil]
    constructor
    · rw [hgroups]
      rfl
    · rw [hcloses, hcompiled.closes_label_iff ht]
      simp

/-! ## The line -/

theorem isTagName_colour (m : Machine) :
    Markup.IsTagName (Loose.whole ("bold " ++ m.status.colour)).points := by
  cases m.status <;> exact ⟨by decide, by decide⟩

theorem statusTags_eq (m : Machine) : m.statusTags =
    ([Markup.tag (Loose.whole ("bold " ++ m.status.colour)).points,
      Markup.tag (.char '/' :: (Loose.whole ("bold " ++ m.status.colour)).points),
      Markup.tag (Loose.whole "bold").points,
      Markup.tag (.char '/' :: (Loose.whole "bold").points)]).map .ofPoints := by
  unfold statusTags
  cases m.status <;> decide +kernel

/-- A group that ends behind the input, if there is one. -/
theorem spilled_input (m : Machine) (back : List CodePoint) :
    (Markup.spilled 0 (Markup.escape m.input).points back).length ≤ 1 ∧
      (Markup.spilled 0 (Markup.escape m.input).points back ≠ [] ↔
        Markup.leavesOpen m.input = true ∧ Markup.closes back = true) := by
  unfold Markup.spilled Markup.leavesOpen
  rw [← Markup.isSome_unclosed?_escape]
  cases Markup.unclosed? 0 (Markup.escape m.input).points <;> cases Markup.closes back <;> simp

/-- What the line is made of: texts between tags, numbers, the input, and what follows it. -/
theorem exists_statusLine {head steps : String} {next : Loose} (hhead : m.headText = .ok head)
    (hsteps : Text.Integer.written m.stepCount = .ok steps) (hnext : m.nextText = .ok next) :
    ∃ line, m.statusLine = .ok line ∧ line.points =
      (Markup.tagged ("bold " ++ m.status.colour) m.status.name).points ++
      ((Loose.whole "  state=").points ++
      ((Markup.tagged "bold" m.state).points ++
      (((Loose.whole "  head=").points ++ ((Loose.whole head).points ++
        ((Loose.whole "  steps=").points ++ ((Loose.whole steps).points ++
          (Loose.whole "  input='").points)))) ++
      ((Markup.escape m.input).points ++
      ((Loose.whole "'").points ++ (next.points ++ m.errorText.points)))))) := by
  unfold statusLine
  rw [hhead, hsteps, hnext]
  refine ⟨_, rfl, ?_⟩
  simp only [Loose.points_append, List.append_assoc]

/-- Whatever was done to a machine with a compiled program, the console reads in its status line the
tags that the line is written with, and one more just if the machine spills. -/
theorem tags_of_statusLine {source : String} {program : Program}
    (hsource : Program.ofSource source = .ok program) {table : Table} {capacity : Option Nat}
    {m : Machine} (hm : ReachableFrom table capacity m) (htable : m.table = program.table)
    (hnumbers : m.NumbersWritable) :
    ∃ line strays, m.statusLine = .ok line ∧
      Markup.tagsOf line = m.statusTags ++ strays ++ m.errorTags ∧
      strays.length ≤ 1 ∧ (strays ≠ [] ↔ m.Spills) := by
  have hsound := isKept_isSound.reachableFrom (isSound_ofTable table capacity) hm
  have hg : m.graph.IsCompiled := by
    rw [graph_eq_of_reachableFrom hsource hm htable]
    exact Program.isCompiled_graph hsource
  have hsteps : Text.Integer.written m.stepCount = .ok (toString (m.stepCount : Int)) :=
    Text.Integer.written_eq_ok_iff.2 ⟨hnumbers.steps, rfl⟩
  obtain ⟨head, hhead, hheadPlain⟩ := exists_headText hnumbers
  obtain ⟨next, hnext, htags, hcloses⟩ := exists_nextText hsource htable hsound hnumbers
  obtain ⟨line, hline, hpoints⟩ := exists_statusLine hhead hsteps hnext
  -- behind the input stand a quote, the next transition and the error
  generalize htail : next.points ++ m.errorText.points = tail at htags hcloses hpoints
  obtain ⟨hlength, hspills⟩ := spilled_input m ((Loose.whole "'").points ++ tail)
  have hmiddle : Markup.IsPlain ((Loose.whole "  head=").points ++ ((Loose.whole head).points ++
      ((Loose.whole "  steps=").points ++ ((Loose.whole (toString (m.stepCount : Int))).points ++
        (Loose.whole "  input='").points)))) :=
    .append (by decide) (.append hheadPlain (.append (by decide)
      (.append (Markup.isPlain_toString m.stepCount) (by decide))))
  have hname : Markup.IsPlain (Loose.whole m.status.name).points := by
    cases m.status <;> decide
  have hstate := Markup.isPlain_of_word (hsound.word_state hg)
  -- the quote ends any run of backslashes in the input
  have hquote : ∀ run, Markup.liveGroups run ((Loose.whole "'").points ++ tail) =
      Markup.liveGroups 0 tail := fun run => rfl
  -- what the input leaves open is closed in the tail, or nowhere
  refine ⟨line, (Markup.spilled 0 (Markup.escape m.input).points
    ((Loose.whole "'").points ++ tail)).map .ofPoints, hline, ?_, ?_, ?_⟩
  · rw [Markup.tagsOf, hpoints,
      Markup.liveGroups_tagged_append m.isTagName_colour
        fun back _ _ => Markup.liveGroups_plain_append hname back,
      Markup.liveGroups_plain_append (by decide),
      Markup.liveGroups_tagged_append ⟨by decide, by decide⟩
        fun back _ _ => Markup.liveGroups_plain_append hstate back,
      Markup.liveGroups_plain_append hmiddle,
      Markup.liveGroups_append rfl, Markup.liveGroups_escape, hquote, statusTags_eq, ← htags,
      ← List.map_append, ← List.map_append]
    rfl
  · rw [List.length_map]
    exact hlength
  · rw [ne_eq, List.map_eq_nil_iff, ← ne_eq, hspills, Spills, ← hcloses]
    rfl

/-- A program with one rule, which replaces a closing bracket. -/
def bracketProgram : Program :=
  let table := Program.tableOf [⟨"q0", "]", "b", "R", "q1", 0⟩]
  ⟨table, Graph.ofTable table⟩

/-- A machine about to do so, whose input ends within a group. -/
def bracketMachine : Machine := (ofTable bracketProgram.table (some 2000)).load "][a"

/-- The console reads a tag that begins in the input and ends in the label. -/
theorem tags_of_statusLine_bracket :
    Program.ofSource "q0 ]/b,R q1" = .ok bracketProgram ∧
      ReachableFrom bracketProgram.table (some 2000) bracketMachine ∧
      bracketMachine.table = bracketProgram.table ∧ bracketMachine.NumbersWritable ∧
      bracketMachine.Spills ∧
      ∃ line strays, bracketMachine.statusLine = .ok line ∧
        Markup.tagsOf line = bracketMachine.statusTags ++ strays ++ bracketMachine.errorTags ∧
        strays.length ≤ 1 ∧ strays ≠ [] := by
  have hsource : Program.ofSource "q0 ]/b,R q1" = .ok bracketProgram := by decide +kernel
  have hm : ReachableFrom bracketProgram.table (some 2000) bracketMachine :=
    .perform (.load "][a") .fresh
  have hactive : bracketMachine.activeTransition? =
      some ⟨"q0", "]", "b", "R", "q1", 0, "]/b,R"⟩ := by
    decide +kernel
  have hnumbers : bracketMachine.NumbersWritable := by
    refine ⟨by decide +kernel, by decide +kernel, fun t ht => ?_⟩
    obtain rfl := Option.some.inj (hactive.symm.trans ht)
    decide +kernel
  have hspills : bracketMachine.Spills := ⟨by decide +kernel, _, hactive, .inl rfl⟩
  obtain ⟨line, strays, hline, htags, hlength, hstrays⟩ :=
    tags_of_statusLine hsource hm rfl hnumbers
  exact ⟨hsource, hm, rfl, hnumbers, hspills, line, strays, hline, htags, hlength,
    hstrays.2 hspills⟩

/-- So its tags are not those that the line is written with. -/
theorem input_read_as_tag : ∃ line, bracketMachine.statusLine = .ok line ∧
    Markup.tagsOf line = ["[bold white]", "[/bold white]", "[bold]", "[/bold]",
      "[a'  next=#0 ]"] := by
  refine ⟨Markup.tagged "bold white" "IDLE" ++ "  state=" ++ Markup.tagged "bold" "q0" ++
    "  head=0  steps=0  input='][a'  next=#0 ]/b,R -> q1", ?_, ?_⟩ <;> decide +kernel

end Machine

end TapeMachine
