import TapeMachine.Graph.Dot
import TapeMachine.Proofs.CompiledGraph
import TapeMachine.Proofs.DiagramLines

/-!
# A Graphviz diagram is read back

The text of a diagram is read line by line. The line of a node and that of an edge begin alike, with
a quoted name, and what stands behind the name tells them apart. A label may hold any symbols, so it
ends where its quote is closed: at a quote that is not escaped.

## Main results

- `closeLabel?_escapeChars`, `unescape_escapeChars`: where an escaped label ends, and what it says
- `nodes_toDot`, `edges_toDot`: the lines that are read are those of the nodes and the edges
- `diagram_toDot`: what a text shows is what is to be seen of its graph
- `toDot_loses_nothing`: programs that are drawn as the same text have the same graph
-/

namespace TapeMachine.Graph.Dot

open Text (after? cutAt after?_append cutAt_append diagramLines)
open Rule (Word)

/-! ## Labels -/

/-- Undoes the escapes of a label. -/
def unescape : List Char → List Char
  | [] => []
  | '\\' :: '\\' :: rest => '\\' :: unescape rest
  | '\\' :: '"' :: rest => '"' :: unescape rest
  | c :: rest => c :: unescape rest

/-- Cuts a text at its first quote that no odd run of backslashes stands in front of. In front of
the text stand `run` backslashes. -/
def closeLabel? (run : Nat) : List Char → Option (List Char × List Char)
  | [] => none
  | c :: rest =>
    if c = '"' ∧ run % 2 = 0 then some ([], rest)
    else (closeLabel? (if c = '\\' then run + 1 else 0) rest).map (Prod.map (c :: ·) id)

/-- The characters of a label, escaped. -/
def escapeChars (cs : List Char) : List Char :=
  cs.flatMap fun c => if c = '\\' ∨ c = '"' then ['\\', c] else [c]

theorem toList_escape (label : String) : (escape label).toList = escapeChars label.toList := by
  rw [escape, String.toList_ofList]
  rfl

theorem unescape_cons {c : Char} (hc : c ≠ '\\') (rest : List Char) :
    unescape (c :: rest) = c :: unescape rest := by
  rw [unescape.eq_4 c rest (fun _ e => absurd e hc) fun _ e => absurd e hc]

/-- The escapes of a label are undone. -/
theorem unescape_escapeChars (cs : List Char) : unescape (escapeChars cs) = cs := by
  unfold escapeChars
  induction cs with
  | nil => rfl
  | cons c cs ih =>
    by_cases hslash : c = '\\'
    · simp [hslash, unescape, ih]
    · by_cases hquote : c = '"'
      · simp [hquote, unescape, ih]
      · simp [hslash, hquote, unescape_cons, ih]

/-- A label ends where its quote closes: within it every quote stands behind an odd run. -/
theorem closeLabel?_escapeChars {run : Nat} (hrun : run % 2 = 0) (cs rest : List Char) :
    closeLabel? run (escapeChars cs ++ '"' :: rest) = some (escapeChars cs, rest) := by
  unfold escapeChars
  -- in front of each character of the label itself the run is even
  induction cs generalizing run with
  | nil => simp [closeLabel?, hrun]
  | cons c cs ih =>
    by_cases hslash : c = '\\'
    · -- two more backslashes leave the run even
      have heven : (run + 1 + 1) % 2 = 0 := by omega
      simp [hslash, closeLabel?, ih heven]
    · by_cases hquote : c = '"'
      · have hodd : ¬ (run + 1) % 2 = 0 := by omega
        simp [hquote, closeLabel?, hodd, ih (Nat.zero_mod 2)]
      · simp [hslash, hquote, closeLabel?, ih (Nat.zero_mod 2)]

/-- A quote behind one backslash does not close a label, and one behind two does. -/
example : closeLabel? 0 ['\\', '"', '\\', '\\', '"', ']'] =
    some (['\\', '"', '\\', '\\'], [']']) := by
  decide

/-! ## Lines -/

/-- The line of a node, as it is read. -/
structure NodeLine where
  name : List Char
  style : List Char
  deriving DecidableEq, Repr

/-- The line of an edge, as it is read. The label is the text between its quotes. -/
structure EdgeLine where
  source : List Char
  target : List Char
  label : List Char
  style : List Char
  deriving DecidableEq, Repr

/-- Reads the line of a node. -/
def nodeLine? (line : List Char) : Option NodeLine := do
  let cs ← after? "  \"" line
  let (name, cs) := cutAt '"' cs
  let style ← after? " [" cs
  some ⟨name, style⟩

/-- Reads the line of an edge. -/
def edgeLine? (line : List Char) : Option EdgeLine := do
  let cs ← after? "  \"" line
  let (source, cs) := cutAt '"' cs
  let cs ← after? " -> \"" cs
  let (target, cs) := cutAt '"' cs
  let cs ← after? " [label=\"" cs
  let (label, style) ← closeLabel? 0 cs
  some ⟨source, target, label, style⟩

/-- The value of an attribute between quotes, if it is set. -/
def attribute? (name : String) (style : List Char) : Option (List Char) :=
  (Text.splitAt ',' style).findSome? fun piece =>
    (after? (" " ++ name ++ "=\"") piece).map fun cs => (cutAt '"' cs).1

/-- The nodes that a text declares. -/
def nodes (text : String) : List NodeLine := (diagramLines text).filterMap nodeLine?

/-- The edges that a text draws. -/
def edges (text : String) : List EdgeLine := (diagramLines text).filterMap edgeLine?

variable {current : Option State} {status : Status} {active : Option Int} {s : State} {e : Edge}

/-- The line of a node behind its name. -/
def nodeStyle (current : Option State) (status : Status) (s : State) : List Char :=
  (", ".intercalate (nodeAttributes current status s) ++ "];").toList

/-- The line of an edge behind its label. -/
def edgeStyle (active : Option Int) (e : Edge) : List Char :=
  if active = some e.index then
    (", color=" ++ enclosed Theme.primary ++ ", fontcolor=" ++ enclosed Theme.primary
      ++ ", penwidth=2];").toList
  else "];".toList

theorem toList_nodeLine : (nodeLine current status s).toList =
    "  \"".toList ++ (s.toList ++ '"' :: (" [".toList ++ nodeStyle current status s)) := by
  simp [nodeLine, nodeStyle, enclosed]

theorem toList_edgeLine : (edgeLine active e).toList =
    "  \"".toList ++ (e.source.toList ++ '"' :: (" -> \"".toList ++ (e.target.toList ++ '"' ::
      (" [label=\"".toList ++ (escapeChars e.label.toList ++ '"' :: edgeStyle active e))))) := by
  by_cases hactive : active = some e.index
  · simp [edgeLine, edgeAttributes, edgeStyle, enclosed, toList_escape, hactive]
  · simp [edgeLine, edgeAttributes, edgeStyle, enclosed, toList_escape, hactive]

theorem nodeLine?_nodeLine (hs : Word s.toList) :
    nodeLine? (nodeLine current status s).toList =
      some ⟨s.toList, nodeStyle current status s⟩ := by
  have hquote : '"' ∉ s.toList := hs.not_mem (by decide)
  simp only [toList_nodeLine, nodeLine?, Option.bind_eq_bind, Option.bind_some,
    cutAt_append hquote, after?_append]

theorem edgeLine?_edgeLine (hsource : Word e.source.toList) (htarget : Word e.target.toList) :
    edgeLine? (edgeLine active e).toList = some ⟨e.source.toList, e.target.toList,
      escapeChars e.label.toList, edgeStyle active e⟩ := by
  have hsource : '"' ∉ e.source.toList := hsource.not_mem (by decide)
  have htarget : '"' ∉ e.target.toList := htarget.not_mem (by decide)
  simp only [toList_edgeLine, edgeLine?, Option.bind_eq_bind, Option.bind_some,
    cutAt_append hsource, cutAt_append htarget, after?_append,
    closeLabel?_escapeChars (Nat.zero_mod 2)]

/-- Behind the name of a node there is no arrow. -/
theorem edgeLine?_nodeLine (hs : Word s.toList) :
    edgeLine? (nodeLine current status s).toList = none := by
  have hquote : '"' ∉ s.toList := hs.not_mem (by decide)
  simp only [toList_nodeLine, edgeLine?, Option.bind_eq_bind, Option.bind_some,
    cutAt_append hquote, after?_append]
  rfl

/-- Behind the source of an edge there is no list of attributes. -/
theorem nodeLine?_edgeLine (hsource : Word e.source.toList) :
    nodeLine? (edgeLine active e).toList = none := by
  have hsource : '"' ∉ e.source.toList := hsource.not_mem (by decide)
  simp only [toList_edgeLine, nodeLine?, Option.bind_eq_bind, Option.bind_some,
    cutAt_append hsource, after?_append]
  rfl

/-- The lines in front of the nodes, and the last one, do not start with a quoted name. -/
theorem after?_head {layout : Layout} {line : String} (h : line ∈ head layout ++ ["\x7d"]) :
    after? "  \"" line.toList = none := by
  simp only [head, enclosed, List.cons_append, List.nil_append, List.mem_cons, List.not_mem_nil,
    or_false] at h
  rcases h with rfl | rfl | rfl | rfl | rfl | rfl
  all_goals simp [after?, List.isPrefixOf?]

/-! ## Texts -/

/-- The layout does not break a line. -/
structure Layout.IsUnbroken (layout : Layout) : Prop where
  name : '\n' ∉ layout.name.toList
  rankdir : '\n' ∉ layout.rankdir.toList

theorem newline_not_mem_escapeChars {cs : List Char} (h : '\n' ∉ cs) : '\n' ∉ escapeChars cs := by
  refine Text.not_mem_flatMap (fun c hc => ?_) h
  split at hc
  · simpa using hc
  · simpa using hc

theorem newline_not_mem_nodeStyle : '\n' ∉ nodeStyle current status s := by
  unfold nodeStyle nodeAttributes
  by_cases hcurrent : current = some s
  · simp only [hcurrent, if_true]
    split <;> cases status <;> decide +kernel
  · simp only [hcurrent, if_false]
    split <;> decide +kernel

theorem newline_not_mem_edgeStyle : '\n' ∉ edgeStyle active e := by
  unfold edgeStyle
  split <;> decide

theorem attribute?_nodeStyle : attribute? "fillcolor" (nodeStyle current status s) =
    if current = some s then some (Theme.ofStatus status).toList else none := by
  unfold nodeStyle nodeAttributes
  by_cases hcurrent : current = some s
  · simp only [hcurrent, if_true]
    split <;> cases status <;> decide +kernel
  · simp only [hcurrent, if_false]
    split <;> decide +kernel

theorem attribute?_edgeStyle : attribute? "color" (edgeStyle active e) =
    if active = some e.index then some Theme.primary.toList else none := by
  unfold edgeStyle
  split <;> decide

variable {g : Graph} {layout : Layout}

/-- No line of a diagram is broken. -/
theorem newline_not_mem_of_mem_lines (hg : g.IsCompiled) (hlayout : layout.IsUnbroken)
    {line : String} (hline : line ∈ lines g layout current status active) :
    '\n' ∉ line.toList := by
  simp only [lines, List.mem_append, List.mem_map, List.mem_singleton] at hline
  -- a line is one of the head, of a node, of an edge, or the last one
  rcases hline with ((hhead | ⟨s, hs, rfl⟩) | ⟨e, he, rfl⟩) | rfl
  · simp only [head, List.mem_cons, List.not_mem_nil, or_false] at hhead
    rcases hhead with rfl | rfl | rfl | rfl | rfl
    · simp [enclosed, hlayout.name]
    · simp [hlayout.rankdir]
    all_goals decide
  · have hname : '\n' ∉ s.toList := (hg.word s hs).not_mem (by decide)
    simp [toList_nodeLine, hname, newline_not_mem_nodeStyle]
  · have hsource : '\n' ∉ e.source.toList := (hg.word_source he).not_mem (by decide)
    have htarget : '\n' ∉ e.target.toList := (hg.word_target he).not_mem (by decide)
    have hlabel := newline_not_mem_escapeChars (hg.isLabel e he).newline_not_mem
    simp [toList_edgeLine, hsource, htarget, hlabel, newline_not_mem_edgeStyle]
  · decide

/-- The lines of a diagram are cut apart again. -/
theorem diagramLines_toDot (hg : g.IsCompiled) (hlayout : layout.IsUnbroken) :
    diagramLines (g.toDot layout current status active) =
      (lines g layout current status active).map String.toList := by
  apply Text.splitAt_intercalate (by rfl)
  · simp [lines]
  · intro line hline
    exact newline_not_mem_of_mem_lines hg hlayout hline

/-- What is read from the lines of a diagram, part by part. -/
theorem filterMap_lines {α : Type} (f : List Char → Option α)
    (hf : ∀ cs, after? "  \"" cs = none → f cs = none) :
    ((lines g layout current status active).map String.toList).filterMap f =
      (g.nodes.filterMap fun s => f (nodeLine current status s).toList) ++
        g.edges.filterMap fun e => f (edgeLine active e).toList := by
  have hhead : (head layout).filterMap (f ∘ String.toList) = [] := by
    apply List.filterMap_eq_nil_iff.2
    intro line hline
    exact hf _ (after?_head (List.mem_append_left _ hline))
  have hlast : ["\x7d"].filterMap (f ∘ String.toList) = [] := by
    apply List.filterMap_eq_nil_iff.2
    intro line hline
    exact hf _ (after?_head (List.mem_append_right (head layout) hline))
  simp only [lines, List.filterMap_map, List.filterMap_append, hhead, hlast, List.nil_append,
    List.append_nil]
  rfl

theorem nodes_toDot (hg : g.IsCompiled) (hlayout : layout.IsUnbroken) :
    nodes (g.toDot layout current status active) =
      g.nodes.map fun s => ⟨s.toList, nodeStyle current status s⟩ := by
  have hnodes : (g.nodes.filterMap fun s => nodeLine? (nodeLine current status s).toList) =
      g.nodes.map fun s => ⟨s.toList, nodeStyle current status s⟩ :=
    List.filterMap_eq_map_iff_forall_eq_some.2 fun s hs => nodeLine?_nodeLine (hg.word s hs)
  have hedges : (g.edges.filterMap fun e => nodeLine? (edgeLine active e).toList) = [] :=
    List.filterMap_eq_nil_iff.2 fun e he => nodeLine?_edgeLine (hg.word_source he)
  rw [nodes, diagramLines_toDot hg hlayout, filterMap_lines, hnodes, hedges, List.append_nil]
  intro cs hcs
  simp [nodeLine?, hcs]

theorem edges_toDot (hg : g.IsCompiled) (hlayout : layout.IsUnbroken) :
    edges (g.toDot layout current status active) =
      g.edges.map fun e => ⟨e.source.toList, e.target.toList, escapeChars e.label.toList,
        edgeStyle active e⟩ := by
  have hnodes : (g.nodes.filterMap fun s => edgeLine? (nodeLine current status s).toList) = [] :=
    List.filterMap_eq_nil_iff.2 fun s hs => edgeLine?_nodeLine (hg.word s hs)
  have hedges : (g.edges.filterMap fun e => edgeLine? (edgeLine active e).toList) =
      g.edges.map fun e => ⟨e.source.toList, e.target.toList, escapeChars e.label.toList,
        edgeStyle active e⟩ :=
    List.filterMap_eq_map_iff_forall_eq_some.2 fun e he =>
      edgeLine?_edgeLine (hg.word_source he) (hg.word_target he)
  rw [edges, diagramLines_toDot hg hlayout, filterMap_lines, hnodes, hedges, List.nil_append]
  intro cs hcs
  simp [edgeLine?, hcs]

/-! ## The diagram -/

/-- What a text shows. A node is filled if it has a colour to be filled with, and an arrow is thick
if it has a colour. -/
def diagram (text : String) : Diagram where
  nodes := (nodes text).map fun n => .ofList n.name
  arrows := (edges text).map fun e =>
    ⟨.ofList e.source, .ofList e.target, .ofList (unescape e.label)⟩
  filled := (nodes text).filterMap fun n =>
    (attribute? "fillcolor" n.style).map fun colour => (.ofList n.name, .ofList colour)
  thick := (List.range (edges text).length).filter fun k =>
    (edges text)[k]?.any fun e => (attribute? "color" e.style).isSome

theorem filled_diagram (hg : g.IsCompiled) (hlayout : layout.IsUnbroken) :
    (diagram (g.toDot layout current status active)).filled =
      (g.diagram current status active).filled := by
  simp only [diagram, nodes_toDot hg hlayout, List.filterMap_map, Graph.diagram]
  rw [← List.filterMap_eq_map, List.filterMap_filter]
  apply List.filterMap_congr
  intro s _
  by_cases hs : current = some s
  · simp [attribute?_nodeStyle, hs]
  · simp [attribute?_nodeStyle, hs, Ne.symm hs]

/-- The numbers of edges are their places, so the active number is a place. -/
theorem thick_diagram (hg : g.IsCompiled) (hlayout : layout.IsUnbroken) :
    (diagram (g.toDot layout current status active)).thick =
      (g.diagram current status active).thick := by
  simp only [diagram, edges_toDot hg hlayout, List.length_map, Graph.diagram]
  apply List.filter_congr
  intro k hk
  have hlt : k < g.edges.length := List.mem_range.1 hk
  have hindex : g.edges[k].index = k := hg.numbered k _ (List.getElem?_eq_getElem hlt)
  by_cases hactive : active = some (k : Int)
  · simp [hlt, attribute?_edgeStyle, hindex, hactive]
  · simp [hlt, attribute?_edgeStyle, hindex, hactive, Ne.symm hactive]

/-- A diagram shows what is to be seen of its graph. -/
theorem diagram_toDot (hg : g.IsCompiled) (hlayout : layout.IsUnbroken) :
    diagram (g.toDot layout current status active) = g.diagram current status active := by
  apply Diagram.ext
  · simp [diagram, nodes_toDot hg hlayout, Graph.diagram, Function.comp_def]
  · simp [diagram, edges_toDot hg hlayout, Graph.diagram, unescape_escapeChars, Edge.arrow]
  · exact filled_diagram hg hlayout
  · exact thick_diagram hg hlayout

/-! ## Nothing is lost -/

/-- The line of an edge stands behind the first five lines and those of the nodes. -/
theorem getElem?_diagramLines (hg : g.IsCompiled) (hlayout : layout.IsUnbroken) {k : Nat} {e : Edge}
    (he : g.edges[k]? = some e) :
    (diagramLines (g.toDot layout current status active))[5 + g.nodes.length + k]? =
      some (edgeLine active e).toList := by
  have hlt : k < g.edges.length := (List.getElem?_eq_some_iff.1 he).1
  have hlength : (head layout ++ g.nodes.map (nodeLine current status)).length =
      5 + g.nodes.length := by
    simp only [head, List.cons_append, List.nil_append, List.length_cons, List.length_map]
    omega
  rw [diagramLines_toDot hg hlayout, lines, List.getElem?_map,
    List.getElem?_append_left (by simp [head]; omega), List.getElem?_append_right (by omega),
    hlength, Nat.add_sub_cancel_left, List.getElem?_map, he]
  rfl

/-- The graphs of two programs that are drawn as the same text are equal, whatever else is drawn
alike. Each edge has a line, in which its label goes up to the first quote that no odd run of
backslashes stands in front of, and is the label of the edge once its escapes are undone. -/
theorem toDot_loses_nothing {source source' : String} {p p' : Program}
    (hp : Program.ofSource source = .ok p) (hp' : Program.ofSource source' = .ok p')
    {layout : Layout} (hlayout : layout.IsUnbroken) (current : Option State) (status : Status)
    (active : Option Int) :
    (p.graph.toDot layout current status active = p'.graph.toDot layout current status active →
      p.graph = p'.graph) ∧
    ∀ k e, p.graph.edges[k]? = some e → ∃ behind label style,
      (diagramLines (p.graph.toDot layout current status active))[5 + p.graph.nodes.length + k]? =
        some (("  " ++ enclosed e.source ++ " -> " ++ enclosed e.target ++ " [label=\"").toList
          ++ behind) ∧
      closeLabel? 0 behind = some (label, style) ∧ unescape label = e.label.toList := by
  have hg := Program.isCompiled_graph hp
  have hg' := Program.isCompiled_graph hp'
  constructor
  · -- the same text shows the same diagram
    intro htext
    have hdiagram := congrArg diagram htext
    rw [diagram_toDot hg hlayout, diagram_toDot hg' hlayout] at hdiagram
    exact hg.eq_of_diagram hg' hdiagram
  · intro k e he
    -- five lines and one for each node stand in front
    refine ⟨_, _, _, ?_, closeLabel?_escapeChars (Nat.zero_mod 2) e.label.toList
      (edgeStyle active e), unescape_escapeChars e.label.toList⟩
    rw [getElem?_diagramLines hg hlayout he, toList_edgeLine]
    simp [enclosed]

/-- The layout that is taken if nothing else is said. -/
theorem isUnbroken_default : ({} : Layout).IsUnbroken := ⟨by decide, by decide⟩

/-- A program that reads a quote and writes a backslash. -/
def quoteProgram : Program :=
  let table := Program.tableOf [⟨"q0", "\"", "\\", "R", "q1", 0⟩]
  ⟨table, Graph.ofTable table⟩

/-- A program that reads a backslash and writes a quote. -/
def backslashProgram : Program :=
  let table := Program.tableOf [⟨"q0", "\\", "\"", "R", "q1", 0⟩]
  ⟨table, Graph.ofTable table⟩

/-- Two programs with the same signs in another order are drawn differently. The label of the first
one can be read. -/
theorem toDot_loses_nothing_quote :
    Program.ofSource "q0 \"/\\,R q1" = .ok quoteProgram ∧
      Program.ofSource "q0 \\/\",R q1" = .ok backslashProgram ∧
      ({} : Layout).IsUnbroken ∧
      quoteProgram.graph.toDot {} (some "q0") .idle (some 0) ≠
        backslashProgram.graph.toDot {} (some "q0") .idle (some 0) ∧
      ∃ behind label style,
        (diagramLines (quoteProgram.graph.toDot {} (some "q0") .idle (some 0)))[
            5 + quoteProgram.graph.nodes.length + 0]? =
          some (("  " ++ enclosed "q0" ++ " -> " ++ enclosed "q1" ++ " [label=\"").toList
            ++ behind) ∧
        closeLabel? 0 behind = some (label, style) ∧ unescape label = "\"/\\,R".toList := by
  have hquote : Program.ofSource "q0 \"/\\,R q1" = .ok quoteProgram := by decide +kernel
  have hbackslash : Program.ofSource "q0 \\/\",R q1" = .ok backslashProgram := by decide +kernel
  have hne : quoteProgram.graph ≠ backslashProgram.graph := by decide +kernel
  have hedge : quoteProgram.graph.edges[0]? = some ⟨"q0", "q1", "\"/\\,R", 0⟩ := by decide +kernel
  obtain ⟨hsame, hlabel⟩ :=
    toDot_loses_nothing hquote hbackslash isUnbroken_default (some "q0") .idle (some 0)
  have hread := hlabel 0 _ hedge
  dsimp only at hread
  exact ⟨hquote, hbackslash, isUnbroken_default, fun htext => hne (hsame htext), hread⟩

end TapeMachine.Graph.Dot
