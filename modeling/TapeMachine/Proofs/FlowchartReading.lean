import TapeMachine.Graph.Mermaid
import TapeMachine.Proofs.CompiledGraph
import TapeMachine.Proofs.DiagramLines

/-!
# A Mermaid flowchart is read back

The text of a flowchart is read line by line: nodes are declared under identifiers, edges are drawn
between identifiers, and at the end there are styles. A label goes from the first quote of its line
to the last one. Quotes in it are written as references, which could as well stand in a text of its
own; but a label is two symbols and a direction, and no symbol has room for a reference.

## Main results

- `unescape_escapeChars`: the references in a label are its quotes
- `items_toMermaid`: what the lines say, one by one
- `diagram_toMermaid`: what a text shows is what is to be seen of its graph
- `isLegible_toMermaid`: identifiers tell nodes apart, and edges are drawn between declared ones
- `toMermaid_loses_nothing`: programs that are drawn as the same text have the same graph
-/

namespace TapeMachine.Graph.Mermaid

open Text (after? cutAt after?_append cutAt_append diagramLines)
open Rule (Word)

/-! ## Labels -/

/-- Turns the character references of a label back into quotes. -/
def unescape : List Char → List Char
  | [] => []
  | '#' :: 'q' :: 'u' :: 'o' :: 't' :: ';' :: rest => '"' :: unescape rest
  | c :: rest => c :: unescape rest

/-- The characters of a label, escaped. -/
def escapeChars (cs : List Char) : List Char :=
  cs.flatMap fun c => if c = '"' then ['#', 'q', 'u', 'o', 't', ';'] else [c]

theorem toList_escape (label : String) : (escape label).toList = escapeChars label.toList := by
  have hreference : "#quot;".toList = ['#', 'q', 'u', 'o', 't', ';'] := by decide
  rw [escape, String.toList_ofList, hreference]
  rfl

/-- A sign that starts no reference stands for itself. -/
theorem unescape_cons {c d : Char} (hd : d ≠ 'q') (rest : List Char) :
    unescape (c :: d :: rest) = c :: unescape (d :: rest) := by
  rw [unescape.eq_3]
  intro rest' _ hrest
  exact hd (List.cons.inj hrest).1

theorem unescape_escapeChars_cons (c : Char) {d : Char} (hd : d ≠ 'q') (rest : List Char) :
    unescape (escapeChars [c] ++ d :: rest) = c :: unescape (d :: rest) := by
  by_cases hc : c = '"'
  · simp [escapeChars, hc, unescape]
  · simp [escapeChars, hc, unescape_cons hd]

/-- Behind a symbol a slash or a comma follows, so a reference in a label is an escaped quote. -/
theorem unescape_escapeChars {label : String} (h : IsLabel label) :
    unescape (escapeChars label.toList) = label.toList := by
  obtain ⟨r, w, d, -, -, rfl⟩ := h
  have hsplit : escapeChars (String.singleton r ++ "/" ++ .singleton w ++ "," ++ d.letter).toList =
      escapeChars [r] ++ '/' :: (escapeChars [w] ++ ',' :: d.letter.toList) := by
    cases d <;> simp [escapeChars, Direction.letter]
  have hend : unescape (',' :: d.letter.toList) = ',' :: d.letter.toList := by
    cases d <;> rfl
  rw [hsplit, unescape_escapeChars_cons r (by decide)]
  have hw : unescape ('/' :: (escapeChars [w] ++ ',' :: d.letter.toList)) =
      '/' :: unescape (escapeChars [w] ++ ',' :: d.letter.toList) := by
    rw [unescape.eq_3]
    intro rest' hslash
    exact absurd hslash (by decide)
  rw [hw, unescape_escapeChars_cons w (by decide), hend]
  simp

/-- Of texts that are no labels this would not hold. -/
example : escapeChars ['"'] = escapeChars ['#', 'q', 'u', 'o', 't', ';'] := by
  decide

theorem quote_not_mem_escapeChars (cs : List Char) : '"' ∉ escapeChars cs := by
  simp only [escapeChars, List.mem_flatMap, not_exists, not_and]
  intro c _
  by_cases hc : c = '"'
  · simp [hc]
  · simp [hc, Ne.symm hc]

theorem newline_not_mem_escapeChars {cs : List Char} (h : '\n' ∉ cs) : '\n' ∉ escapeChars cs := by
  refine Text.not_mem_flatMap (fun c hc => ?_) h
  split at hc
  · simp at hc
  · simpa using hc

/-! ## Lines -/

/-- The line of a node, as it is read. -/
structure NodeLine where
  id : List Char
  caption : List Char
  deriving DecidableEq, Repr

/-- The line of an edge between identifiers, as it is read. The label is the text between the first
quote and the last one. -/
structure EdgeLine where
  source : List Char
  target : List Char
  label : List Char
  deriving DecidableEq, Repr

/-- Takes an identifier, up to a blank or a bracket. -/
def identifier (cs : List Char) : List Char × List Char :=
  (cs.takeWhile fun c => c != ' ' && c != '(', cs.dropWhile fun c => c != ' ' && c != '(')

/-- What stands in front of the last mark, and what stands behind it. -/
def cutAtLast (mark : Char) (cs : List Char) : List Char × List Char :=
  let (behind, front) := cutAt mark cs.reverse
  (front.reverse, behind.reverse)

/-- Reads the line of a node: its caption stands in two rings, or in three. -/
def nodeLine? (line : List Char) : Option NodeLine := do
  let cs ← after? "  " line
  let (id, cs) := identifier cs
  let cs ← after? "((" cs
  some ⟨id, (cutAt ')' (cs.dropWhile (· == '('))).1⟩

/-- Reads the line of an edge. -/
def edgeLine? (line : List Char) : Option EdgeLine := do
  let cs ← after? "  " line
  let (source, cs) := identifier cs
  let cs ← after? " -->|\"" cs
  let (label, cs) := cutAtLast '"' cs
  let target ← after? "| " cs
  some ⟨source, target, label⟩

/-- What a line says. -/
inductive Line where
  /-- This node is declared. -/
  | node (n : NodeLine)
  /-- This edge is drawn. -/
  | edge (e : EdgeLine)
  /-- A class of nodes has a colour. -/
  | style (name colour : List Char)
  /-- A node is in a class. -/
  | member (id name : List Char)
  /-- The edge at a place has a style of its own. -/
  | link (place : Nat)
  deriving DecidableEq, Repr

/-- Reads the line that gives a class its colour. -/
def styleLine? (line : List Char) : Option Line := do
  let cs ← after? "  classDef " line
  let (name, cs) := cutAt ' ' cs
  let cs ← after? "fill:" cs
  some (.style name (cutAt ',' cs).1)

/-- Reads the line that puts a node into a class. -/
def memberLine? (line : List Char) : Option Line := do
  let cs ← after? "  class " line
  let (id, cs) := cutAt ' ' cs
  some (.member id (cutAt ';' cs).1)

/-- Reads the line that gives an edge a style. -/
def linkLine? (line : List Char) : Option Line := do
  let cs ← after? "  linkStyle " line
  some (.link (Nat.ofDigitChars 10 (cutAt ' ' cs).1 0))

/-- Reads a line. The keywords of styles are no identifiers. -/
def line? (line : List Char) : Option Line :=
  styleLine? line <|> memberLine? line <|> linkLine? line
    <|> (edgeLine? line).map .edge <|> (nodeLine? line).map .node

theorem cutAtLast_append {mark : Char} {rest : List Char} (h : mark ∉ rest) (front : List Char) :
    cutAtLast mark (front ++ mark :: rest) = (front, rest) := by
  have hreverse : mark ∉ rest.reverse := by simpa using h
  simp [cutAtLast, cutAt_append hreverse]

theorem word_nodeId {s : State} (hs : Word s.toList) : Word (nodeId s).toList := by
  have htoList : (nodeId s).toList = 's' :: '_' :: s.toList := by simp [nodeId]
  refine ⟨by simp [htoList], fun c hc => ?_⟩
  rw [htoList, List.mem_cons, List.mem_cons] at hc
  rcases hc with rfl | rfl | hc
  · decide
  · decide
  · exact hs.2 c hc

/-- A word is an identifier, in front of a blank or a bracket. -/
theorem identifier_append {w : List Char} (hw : Word w) {c : Char} (hc : c = ' ' ∨ c = '(')
    (rest : List Char) : identifier (w ++ c :: rest) = (w, c :: rest) := by
  have hblank : ' ' ∉ w := hw.not_mem (by decide)
  have hbracket : '(' ∉ w := hw.not_mem (by decide)
  have hname : ∀ d ∈ w, (d != ' ' && d != '(') = true := by
    intro d hd
    have h₁ : d ≠ ' ' := fun e => hblank (e ▸ hd)
    have h₂ : d ≠ '(' := fun e => hbracket (e ▸ hd)
    simp [h₁, h₂]
  have hstops : Rule.Stops (fun d => d != ' ' && d != '(') (c :: rest) := by
    apply Rule.stops_cons
    cases hc <;> simp [*]
  rw [identifier, Rule.takeWhile_append_of_stops hname hstops,
    Rule.dropWhile_append_of_stops hname hstops]

variable {current : Option State} {status : Status} {active : Option Int} {s : State} {e : Edge}

/-- Behind the two rings of a node its caption stands, after one more for the accepting state. -/
theorem exists_toList_nodeLine (s : State) : ∃ third behind : List Char,
    (∀ c ∈ third, (c == '(') = true) ∧
    (nodeLine s).toList = "  ".toList ++ ((nodeId s).toList ++ '(' :: '(' ::
      (third ++ (s.toList ++ ')' :: behind))) := by
  by_cases hs : s = acceptState
  · refine ⟨['('], "))".toList, by simp, ?_⟩
    simp [nodeLine, hs]
  · refine ⟨[], ")".toList, by simp, ?_⟩
    simp [nodeLine, hs]

theorem toList_edgeLine : (edgeLine e).toList = "  ".toList ++ ((nodeId e.source).toList ++ ' ' ::
    ("-->|\"".toList ++ (escapeChars e.label.toList ++ '"' ::
      ("| ".toList ++ (nodeId e.target).toList)))) := by
  simp [edgeLine, toList_escape]

theorem nodeLine?_nodeLine (hs : Word s.toList) :
    nodeLine? (nodeLine s).toList = some ⟨(nodeId s).toList, s.toList⟩ := by
  obtain ⟨third, behind, hthird, hline⟩ := exists_toList_nodeLine s
  have hclosing : ')' ∉ s.toList := hs.not_mem (by decide)
  have hbracket : '(' ∉ s.toList := hs.not_mem (by decide)
  have hstops : Rule.Stops (· == '(') (s.toList ++ ')' :: behind) := by
    refine Rule.stops_append (fun c hc => ?_) fun _ => Rule.stops_cons (by decide)
    have hne : c ≠ '(' := fun e => hbracket (e ▸ hc)
    simp [hne]
  have hrings : after? "((" ('(' :: '(' :: (third ++ (s.toList ++ ')' :: behind))) =
      some (third ++ (s.toList ++ ')' :: behind)) := after?_append "((" _
  simp only [nodeLine?, hline, after?_append, Option.bind_eq_bind, Option.bind_some,
    identifier_append (word_nodeId hs) (.inr rfl), hrings,
    Rule.dropWhile_append_of_stops hthird hstops, cutAt_append hclosing]

theorem edgeLine?_edgeLine (hsource : Word e.source.toList) (htarget : Word e.target.toList) :
    edgeLine? (edgeLine e).toList = some ⟨(nodeId e.source).toList, (nodeId e.target).toList,
      escapeChars e.label.toList⟩ := by
  -- behind the closing quote there is none, whatever the label is
  have hquote : '"' ∉ "| ".toList ++ (nodeId e.target).toList := by
    have hid : '"' ∉ (nodeId e.target).toList := (word_nodeId htarget).not_mem (by decide)
    simp [hid]
  have harrow : ∀ rest, after? " -->|\"" (' ' :: ("-->|\"".toList ++ rest)) = some rest :=
    after?_append " -->|\""
  simp only [edgeLine?, toList_edgeLine, after?_append, Option.bind_eq_bind, Option.bind_some,
    identifier_append (word_nodeId hsource) (.inl rfl), harrow, cutAtLast_append hquote]

/-- Behind the identifier of a node there is a bracket. -/
theorem edgeLine?_nodeLine (hs : Word s.toList) : edgeLine? (nodeLine s).toList = none := by
  obtain ⟨third, behind, -, hline⟩ := exists_toList_nodeLine s
  simp only [edgeLine?, hline, after?_append, Option.bind_eq_bind, Option.bind_some,
    identifier_append (word_nodeId hs) (.inr rfl)]
  rfl

/-- Behind the source of an edge there is a blank. -/
theorem nodeLine?_edgeLine (hsource : Word e.source.toList) :
    nodeLine? (edgeLine e).toList = none := by
  simp only [nodeLine?, toList_edgeLine, after?_append, Option.bind_eq_bind, Option.bind_some,
    identifier_append (word_nodeId hsource) (.inl rfl)]
  rfl

/-- A line that starts with a name starts with no keyword. -/
theorem line?_nodeId (s : State) (rest : List Char) :
    line? ("  ".toList ++ ((nodeId s).toList ++ rest)) =
      ((edgeLine? ("  ".toList ++ ((nodeId s).toList ++ rest))).map .edge
        <|> (nodeLine? ("  ".toList ++ ((nodeId s).toList ++ rest))).map .node) := by
  have hstyle : after? "  classDef " ("  ".toList ++ ((nodeId s).toList ++ rest)) = none := by
    simp [nodeId, after?, List.isPrefixOf?]
  have hmember : after? "  class " ("  ".toList ++ ((nodeId s).toList ++ rest)) = none := by
    simp [nodeId, after?, List.isPrefixOf?]
  have hlink : after? "  linkStyle " ("  ".toList ++ ((nodeId s).toList ++ rest)) = none := by
    simp [nodeId, after?, List.isPrefixOf?]
  rw [line?, styleLine?, memberLine?, linkLine?, hstyle, hmember, hlink]
  rfl

theorem line?_nodeLine (hs : Word s.toList) :
    line? (nodeLine s).toList = some (.node ⟨(nodeId s).toList, s.toList⟩) := by
  obtain ⟨third, behind, -, hline⟩ := exists_toList_nodeLine s
  rw [hline, line?_nodeId, ← hline, edgeLine?_nodeLine hs, nodeLine?_nodeLine hs]
  rfl

theorem line?_edgeLine (hsource : Word e.source.toList) (htarget : Word e.target.toList) :
    line? (edgeLine e).toList = some (.edge ⟨(nodeId e.source).toList, (nodeId e.target).toList,
      escapeChars e.label.toList⟩) := by
  rw [toList_edgeLine, line?_nodeId, ← toList_edgeLine, edgeLine?_edgeLine hsource htarget]
  rfl

theorem line?_defaultStyle :
    line? defaultStyle.toList = some (.style "default".toList "#ffffff".toList) := by
  decide

theorem line?_currentColour (status : Status) :
    line? ("  classDef current fill:" ++ Theme.ofStatus status ++ ",stroke:"
      ++ Theme.ofStatus status ++ ",color:#ffffff;").toList =
      some (.style "current".toList (Theme.ofStatus status).toList) := by
  cases status <;> decide

theorem line?_member (hs : Word s.toList) :
    line? ("  class " ++ nodeId s ++ " current;").toList =
      some (.member (nodeId s).toList "current".toList) := by
  have hline : ("  class " ++ nodeId s ++ " current;").toList =
      "  class ".toList ++ ((nodeId s).toList ++ ' ' :: "current;".toList) := by
    simp
  have hblank : ' ' ∉ (nodeId s).toList := (word_nodeId hs).not_mem (by decide)
  have hstyle : after? "  classDef "
      ("  class ".toList ++ ((nodeId s).toList ++ ' ' :: "current;".toList)) = none := by
    simp [after?, List.isPrefixOf?]
  rw [hline, line?, styleLine?, hstyle, memberLine?, after?_append]
  simp only [Option.bind_eq_bind, Option.bind_some, cutAt_append hblank]
  rfl

theorem not_mem_toDigits {c : Char} (hc : c.isDigit = false) (n : Nat) :
    c ∉ Nat.toDigits 10 n := by
  intro hmem
  rw [Nat.isDigit_of_mem_toDigits (by decide) (by decide) hmem] at hc
  contradiction

theorem toList_link (n : Nat) :
    ("  linkStyle " ++ toString (n : Int) ++ " stroke:" ++ Theme.primary
      ++ ",stroke-width:3px;").toList = "  linkStyle ".toList ++ (Nat.toDigits 10 n ++
        ' ' :: ("stroke:" ++ Theme.primary ++ ",stroke-width:3px;").toList) := by
  have hdigits : (toString (n : Int)).toList = Nat.toDigits 10 n := Nat.toList_repr
  simp only [String.toList_append, hdigits, List.append_assoc]
  rfl

theorem line?_link (n : Nat) :
    line? ("  linkStyle " ++ toString (n : Int) ++ " stroke:" ++ Theme.primary
      ++ ",stroke-width:3px;").toList = some (.link n) := by
  have hstyle : after? "  classDef " ("  linkStyle ".toList ++ (Nat.toDigits 10 n ++
      ' ' :: ("stroke:" ++ Theme.primary ++ ",stroke-width:3px;").toList)) = none := by
    simp [after?, List.isPrefixOf?]
  have hmember : after? "  class " ("  linkStyle ".toList ++ (Nat.toDigits 10 n ++
      ' ' :: ("stroke:" ++ Theme.primary ++ ",stroke-width:3px;").toList)) = none := by
    simp [after?, List.isPrefixOf?]
  have hblank : ' ' ∉ Nat.toDigits 10 n := not_mem_toDigits (by decide) n
  rw [toList_link, line?, styleLine?, hstyle, memberLine?, hmember, linkLine?, after?_append]
  simp only [Option.bind_eq_bind, Option.bind_some, cutAt_append hblank,
    Nat.ofDigitChars_ten_toDigits]
  rfl

/-! ## Texts -/

variable {g : Graph}

/-- No line of a flowchart is broken. -/
theorem newline_not_mem_of_mem_lines (hg : g.IsCompiled) {line : String}
    (hline : line ∈ lines g current status active) : '\n' ∉ line.toList := by
  have hid : ∀ s ∈ g.nodes, '\n' ∉ (nodeId s).toList :=
    fun s hs => (word_nodeId (hg.word s hs)).not_mem (by decide)
  -- the first line, those of the nodes and the edges, and three kinds of styles
  simp only [lines, List.mem_append, List.mem_map, List.mem_singleton] at hline
  rcases hline with ((((rfl | ⟨s, hs, rfl⟩) | ⟨e, he, rfl⟩) | rfl) | hcurrent) | hactive
  · decide
  · have hname : '\n' ∉ s.toList := (hg.word s hs).not_mem (by decide)
    unfold nodeLine
    split <;> simp [hid s hs, hname]
  · have hlabel := newline_not_mem_escapeChars (hg.isLabel e he).newline_not_mem
    simp [toList_edgeLine, hid _ (hg.source_mem e he), hid _ (hg.target_mem e he), hlabel]
  · decide
  · unfold currentStyle at hcurrent
    split at hcurrent
    · split at hcurrent
      · rename_i s hs
        simp only [List.mem_cons, List.not_mem_nil, or_false] at hcurrent
        rcases hcurrent with rfl | rfl
        · cases status <;> decide
        · simp [hid s hs]
      · contradiction
    · contradiction
  · unfold activeStyle at hactive
    split at hactive
    · split at hactive
      · rename_i i hi
        obtain ⟨n, rfl⟩ := Int.eq_ofNat_of_zero_le hi.1
        have hdigits : '\n' ∉ Nat.toDigits 10 n := not_mem_toDigits (by decide) n
        rw [List.mem_singleton.1 hactive, toList_link]
        simp [hdigits, Theme.primary]
      · contradiction
    · contradiction

/-- The lines of a flowchart are cut apart again. -/
theorem diagramLines_toMermaid (hg : g.IsCompiled) :
    diagramLines (g.toMermaid current status active) =
      (lines g current status active).map String.toList := by
  apply Text.splitAt_intercalate (by rfl)
  · simp [lines]
  · intro line hline
    exact newline_not_mem_of_mem_lines hg hline

/-- What the lines of a text say. -/
def items (text : String) : List Line := (diagramLines text).filterMap line?

/-- The lines of the current state colour it if it is a node. -/
theorem filterMap_currentStyle (hg : g.IsCompiled) (active : Option Int) :
    (currentStyle g current status).filterMap (line? ∘ String.toList) =
      (g.diagram current status active).filled.flatMap fun p =>
        [.style "current".toList p.2.toList, .member (nodeId p.1).toList "current".toList] := by
  cases current with
  | none => simp [currentStyle]
  | some s =>
    by_cases hs : s ∈ g.nodes
    · simp only [currentStyle, hs, if_true, hg.filled_diagram, List.filterMap_cons,
        Function.comp_apply, line?_currentColour, line?_member (hg.word s hs), List.filterMap_nil]
      rfl
    · simp [currentStyle, hs, hg.filled_diagram]

/-- The line of the active edge names its place, if it is one. -/
theorem filterMap_activeStyle (current : Option State) (status : Status) :
    (activeStyle g active).filterMap (line? ∘ String.toList) =
      (g.diagram current status active).thick.map .link := by
  cases active with
  | none => simp [activeStyle]
  | some i =>
    by_cases hi : 0 ≤ i ∧ i < g.edges.length
    · obtain ⟨n, rfl⟩ := Int.eq_ofNat_of_zero_le hi.1
      simp only [activeStyle, thick_diagram, if_pos hi, List.filterMap_cons, Function.comp_apply,
        line?_link, List.filterMap_nil]
      rfl
    · simp [activeStyle, hi, thick_diagram]

theorem items_toMermaid (hg : g.IsCompiled) :
    items (g.toMermaid current status active) =
      (g.nodes.map fun s => Line.node ⟨(nodeId s).toList, s.toList⟩) ++
      (g.edges.map fun e => Line.edge ⟨(nodeId e.source).toList, (nodeId e.target).toList,
        escapeChars e.label.toList⟩) ++
      (Line.style "default".toList "#ffffff".toList ::
        ((g.diagram current status active).filled.flatMap fun p =>
          [Line.style "current".toList p.2.toList, .member (nodeId p.1).toList "current".toList]) ++
        (g.diagram current status active).thick.map Line.link) := by
  have hnodes : (g.nodes.map nodeLine).filterMap (line? ∘ String.toList) =
      g.nodes.map fun s => .node ⟨(nodeId s).toList, s.toList⟩ := by
    rw [List.filterMap_map]
    exact List.filterMap_eq_map_iff_forall_eq_some.2 fun s hs => line?_nodeLine (hg.word s hs)
  have hedges : (g.edges.map edgeLine).filterMap (line? ∘ String.toList) =
      g.edges.map fun e => .edge ⟨(nodeId e.source).toList, (nodeId e.target).toList,
        escapeChars e.label.toList⟩ := by
    rw [List.filterMap_map]
    exact List.filterMap_eq_map_iff_forall_eq_some.2 fun e he =>
      line?_edgeLine (hg.word_source he) (hg.word_target he)
  have hfirst : ["graph LR"].filterMap (line? ∘ String.toList) = [] := by decide
  have hdefault : [defaultStyle].filterMap (line? ∘ String.toList) =
      [.style "default".toList "#ffffff".toList] := by
    simp only [List.filterMap_cons, Function.comp_apply, line?_defaultStyle, List.filterMap_nil]
  -- the lines kind by kind; the first one is none of them
  rw [items, diagramLines_toMermaid hg, List.filterMap_map, lines]
  simp only [List.filterMap_append, hfirst, hnodes, hedges, hdefault,
    filterMap_currentStyle hg active, filterMap_activeStyle current status, List.nil_append,
    List.append_assoc]
  rfl

/-! ## The diagram -/

/-- The nodes that a text declares. -/
def nodes (text : String) : List NodeLine :=
  (items text).filterMap fun | .node n => some n | _ => none

/-- The edges that a text draws. -/
def edges (text : String) : List EdgeLine :=
  (items text).filterMap fun | .edge e => some e | _ => none

/-- The classes that a text gives a colour, with the colours. -/
def styles (text : String) : List (List Char × List Char) :=
  (items text).filterMap fun | .style name colour => some (name, colour) | _ => none

/-- The identifiers that a text puts into classes, with the classes. -/
def members (text : String) : List (List Char × List Char) :=
  (items text).filterMap fun | .member id name => some (id, name) | _ => none

/-- The places of the edges that a text gives a style. -/
def links (text : String) : List Nat :=
  (items text).filterMap fun | .link place => some place | _ => none

/-- The caption of the node that is declared under an identifier. -/
def caption? (text : String) (id : List Char) : Option State :=
  ((nodes text).find? (·.id = id)).map fun n => .ofList n.caption

/-- What a text shows. Edges are drawn between nodes that are declared. A node is filled if it is in
a class that has a colour, and an arrow is thick if its place has a style. -/
def diagram (text : String) : Diagram where
  nodes := (nodes text).map fun n => .ofList n.caption
  arrows := (edges text).filterMap fun e => do
    let source ← caption? text e.source
    let target ← caption? text e.target
    some ⟨source, target, .ofList (unescape e.label)⟩
  filled := (members text).flatMap fun (id, name) => (styles text).filterMap fun (name', colour) =>
    if name' = name then (caption? text id).map fun s => (s, .ofList colour) else none
  thick := links text

section

variable (hg : g.IsCompiled)

include hg

/-- What is read from the lines of a flowchart, kind by kind. -/
theorem filterMap_items {α : Type} (f : Line → Option α) :
    (items (g.toMermaid current status active)).filterMap f =
      (g.nodes.filterMap fun s => f (.node ⟨(nodeId s).toList, s.toList⟩)) ++
      (g.edges.filterMap fun e => f (.edge ⟨(nodeId e.source).toList, (nodeId e.target).toList,
        escapeChars e.label.toList⟩)) ++
      ([Line.style "default".toList "#ffffff".toList].filterMap f ++
        ((g.diagram current status active).filled.flatMap fun p =>
          [Line.style "current".toList p.2.toList,
            .member (nodeId p.1).toList "current".toList].filterMap f) ++
        (g.diagram current status active).thick.filterMap fun place => f (.link place)) := by
  rw [items_toMermaid hg, ← List.singleton_append]
  simp only [List.filterMap_append, List.filterMap_map, List.filterMap_flatMap, Function.comp_def]

theorem nodes_toMermaid : nodes (g.toMermaid current status active) =
    g.nodes.map fun s => ⟨(nodeId s).toList, s.toList⟩ := by
  rw [nodes, filterMap_items hg]
  simp

theorem edges_toMermaid : edges (g.toMermaid current status active) =
    g.edges.map fun e => ⟨(nodeId e.source).toList, (nodeId e.target).toList,
      escapeChars e.label.toList⟩ := by
  rw [edges, filterMap_items hg]
  simp

theorem styles_toMermaid : styles (g.toMermaid current status active) =
    ("default".toList, "#ffffff".toList) :: (g.diagram current status active).filled.map
      fun p => ("current".toList, p.2.toList) := by
  rw [styles, filterMap_items hg, List.map_eq_flatMap]
  simp

theorem members_toMermaid : members (g.toMermaid current status active) =
    (g.diagram current status active).filled.map
      fun p => ((nodeId p.1).toList, "current".toList) := by
  rw [members, filterMap_items hg, List.map_eq_flatMap]
  simp

theorem links_toMermaid : links (g.toMermaid current status active) =
    (g.diagram current status active).thick := by
  rw [links, filterMap_items hg]
  simp

/-- A node is declared under its own identifier only. -/
theorem caption?_toMermaid {s : State} (hs : s ∈ g.nodes) :
    caption? (g.toMermaid current status active) (nodeId s).toList = some s := by
  have hid : ((fun n : NodeLine => decide (n.id = (nodeId s).toList)) ∘ fun s' : State =>
      ⟨(nodeId s').toList, s'.toList⟩) = fun s' => decide (s' = s) := by
    funext s'
    simp [nodeId, String.toList_inj]
  rw [caption?, nodes_toMermaid hg, List.find?_map, hid]
  -- the first node that is declared under the identifier is the state itself
  cases hfind : g.nodes.find? (fun s' => decide (s' = s)) with
  | none =>
    have hne := List.find?_eq_none.1 hfind s hs
    simp at hne
  | some s' =>
    have hfound := List.find?_some hfind
    simp only [decide_eq_true_eq] at hfound
    simp [hfound]

/-- The one class that is not for all nodes is that of the current state. -/
theorem filled_diagram : (diagram (g.toMermaid current status active)).filled =
    (g.diagram current status active).filled := by
  simp only [diagram, members_toMermaid hg, styles_toMermaid hg]
  cases current with
  | none => simp
  | some s =>
    rw [hg.filled_diagram]
    by_cases hs : s ∈ g.nodes
    · simp [hs, caption?_toMermaid hg hs]
    · simp [hs]

theorem arrows_diagram : (diagram (g.toMermaid current status active)).arrows =
    (g.diagram current status active).arrows := by
  simp only [diagram, edges_toMermaid hg, List.filterMap_map, Graph.diagram]
  apply List.filterMap_eq_map_iff_forall_eq_some.2
  intro e he
  simp [caption?_toMermaid hg (hg.source_mem e he), caption?_toMermaid hg (hg.target_mem e he),
    unescape_escapeChars (hg.isLabel e he), Edge.arrow]

/-- A flowchart shows what is to be seen of its graph. -/
theorem diagram_toMermaid :
    diagram (g.toMermaid current status active) = g.diagram current status active := by
  apply Diagram.ext
  · simp [diagram, nodes_toMermaid hg, Graph.diagram, Function.comp_def]
  · exact arrows_diagram hg
  · exact filled_diagram hg
  · exact links_toMermaid hg

end

/-! ## Nothing is lost -/

/-- The identifiers of a text tell its nodes apart, its edges are drawn between nodes that it
declares, and no label holds a quote. -/
structure IsLegible (text : String) (g : Graph) : Prop where
  /-- A state has one line, and stands in it under its identifier. -/
  declared_once : ∀ s ∈ g.nodes,
    (nodes text).filter (·.caption = s.toList) = [⟨(nodeId s).toList, s.toList⟩]
  length_nodes : (nodes text).length = g.nodes.length
  ids_nodup : ((nodes text).map NodeLine.id).Nodup
  length_edges : (edges text).length = g.edges.length
  source_declared : ∀ e ∈ edges text, e.source ∈ (nodes text).map NodeLine.id
  target_declared : ∀ e ∈ edges text, e.target ∈ (nodes text).map NodeLine.id
  quote_not_mem : ∀ e ∈ edges text, '"' ∉ e.label

section

variable (hg : g.IsCompiled)

include hg

/-- No other state stands in the line of a state, since none is listed twice. -/
theorem filter_nodes_toMermaid {s : State} (hs : s ∈ g.nodes) :
    (nodes (g.toMermaid current status active)).filter (·.caption = s.toList) =
      [⟨(nodeId s).toList, s.toList⟩] := by
  have hcaption : ((fun n : NodeLine => decide (n.caption = s.toList)) ∘ fun s' : State =>
      ⟨(nodeId s').toList, s'.toList⟩) = fun s' => decide (s' = s) := by
    funext s'
    simp [String.toList_inj]
  rw [nodes_toMermaid hg, List.filter_map, hcaption, List.filter_eq, hg.nodup.count, if_pos hs]
  rfl

theorem ids_nodup_toMermaid :
    ((nodes (g.toMermaid current status active)).map NodeLine.id).Nodup := by
  rw [nodes_toMermaid hg, List.map_map]
  apply hg.nodup.map
  intro s s' hid
  simpa [nodeId, String.toList_inj] using hid

theorem id_mem_toMermaid {s : State} (hs : s ∈ g.nodes) :
    (nodeId s).toList ∈ (nodes (g.toMermaid current status active)).map NodeLine.id := by
  rw [nodes_toMermaid hg, List.map_map]
  exact List.mem_map.2 ⟨s, hs, rfl⟩

theorem exists_edge_of_mem {e : EdgeLine} (he : e ∈ edges (g.toMermaid current status active)) :
    ∃ edge ∈ g.edges, e = ⟨(nodeId edge.source).toList, (nodeId edge.target).toList,
      escapeChars edge.label.toList⟩ := by
  rw [edges_toMermaid hg] at he
  obtain ⟨edge, hmem, rfl⟩ := List.mem_map.1 he
  exact ⟨edge, hmem, rfl⟩

theorem isLegible_toMermaid : IsLegible (g.toMermaid current status active) g where
  declared_once s hs := filter_nodes_toMermaid hg hs
  length_nodes := by simp [nodes_toMermaid hg]
  ids_nodup := ids_nodup_toMermaid hg
  length_edges := by simp [edges_toMermaid hg]
  source_declared e he := by
    obtain ⟨edge, hmem, rfl⟩ := exists_edge_of_mem hg he
    exact id_mem_toMermaid hg (hg.source_mem edge hmem)
  target_declared e he := by
    obtain ⟨edge, hmem, rfl⟩ := exists_edge_of_mem hg he
    exact id_mem_toMermaid hg (hg.target_mem edge hmem)
  quote_not_mem e he := by
    obtain ⟨edge, -, rfl⟩ := exists_edge_of_mem hg he
    exact quote_not_mem_escapeChars edge.label.toList

end

/-- The graphs of two programs that are drawn as the same flowchart are equal. A flowchart declares
each state once and under an identifier of its own, and draws its edges between states that it
declares. -/
theorem toMermaid_loses_nothing {source source' : String} {p p' : Program}
    (hp : Program.ofSource source = .ok p) (hp' : Program.ofSource source' = .ok p')
    (current : Option State) (status : Status) (active : Option Int) :
    (p.graph.toMermaid current status active = p'.graph.toMermaid current status active →
      p.graph = p'.graph) ∧
    IsLegible (p.graph.toMermaid current status active) p.graph := by
  have hg := Program.isCompiled_graph hp
  have hg' := Program.isCompiled_graph hp'
  constructor
  · -- the same text shows the same diagram
    intro htext
    have hdiagram := congrArg diagram htext
    rw [diagram_toMermaid hg, diagram_toMermaid hg'] at hdiagram
    exact hg.eq_of_diagram hg' hdiagram
  · exact isLegible_toMermaid hg

/-- A program that reads a quote in the one state and a sign of references in the other. -/
def referenceProgram : Program :=
  let table := Program.tableOf [⟨"q0", "\"", "#", "R", "end", 0⟩, ⟨"end", "#", "|", "S", "ha", 1⟩]
  ⟨table, Graph.ofTable table⟩

/-- A program that does so the other way round. -/
def turnedProgram : Program :=
  let table := Program.tableOf [⟨"q0", "#", "\"", "R", "end", 0⟩, ⟨"end", "#", "|", "S", "ha", 1⟩]
  ⟨table, Graph.ofTable table⟩

/-- Two programs with the same signs in another order are drawn differently. -/
theorem toMermaid_loses_nothing_reference :
    Program.ofSource "q0 \"/#,R end\nend #/|,S ha" = .ok referenceProgram ∧
      Program.ofSource "q0 #/\",R end\nend #/|,S ha" = .ok turnedProgram ∧
      referenceProgram.graph.toMermaid (some "end") .running (some 1) ≠
        turnedProgram.graph.toMermaid (some "end") .running (some 1) ∧
      IsLegible (referenceProgram.graph.toMermaid (some "end") .running (some 1))
        referenceProgram.graph := by
  have hreference : Program.ofSource "q0 \"/#,R end\nend #/|,S ha" = .ok referenceProgram := by
    decide +kernel
  have hturned : Program.ofSource "q0 #/\",R end\nend #/|,S ha" = .ok turnedProgram := by
    decide +kernel
  have hne : referenceProgram.graph ≠ turnedProgram.graph := by decide +kernel
  obtain ⟨hsame, hlegible⟩ :=
    toMermaid_loses_nothing hreference hturned (some "end") .running (some 1)
  exact ⟨hreference, hturned, fun htext => hne (hsame htext), hlegible⟩

end TapeMachine.Graph.Mermaid
