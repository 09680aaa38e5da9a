import TapeMachine.Display.MachineView
import TapeMachine.Proofs.TapeText

/-!
# The strip of tape around the head

Three readers look at a tape: the window around the head, the text of the tape, and the head. They
agree on every tape that a machine with a compiled program comes to. A machine is drawn as its
window, with the positions as headers and the cell of the head highlighted. The drawing falls short
of the window in two ways. The console keeps some control characters for itself, and a position of
too many digits cannot be written.

## Main results

- `Tape.mem_windowPositions`, `Tape.pairwise_windowPositions`: what a window goes over
- `Machine.drawTape_eq`: when a strip is drawn, and as what
- `Machine.isStripOf_drawTape`: a strip shows the window, the head highlighted
- `Machine.window_and_strip`: all of it, whatever is done to a machine
-/

namespace TapeMachine

open Text (CodePoint Loose)

/-! ## Windows -/

namespace Tape

variable {head radius i : Nat}

/-- A window goes over the positions near the head that are on the tape. -/
theorem mem_windowPositions :
    i ∈ windowPositions head radius ↔ (head : Int) - radius ≤ i ∧ (i : Int) ≤ head + radius := by
  simp only [windowPositions, List.mem_range'_1]
  omega

theorem pairwise_windowPositions (head radius : Nat) :
    (windowPositions head radius).Pairwise (· < ·) :=
  List.pairwise_lt_range'

/-- The head is met once. -/
theorem filter_windowPositions (head radius : Nat) :
    (windowPositions head radius).filter (· = head) = [head] := by
  have hmem : head ∈ windowPositions head radius := mem_windowPositions.2 (by omega)
  have hnodup : (windowPositions head radius).Nodup :=
    (pairwise_windowPositions head radius).imp Nat.ne_of_lt
  rw [List.filter_eq, List.count_eq_one_of_mem hnodup hmem]
  rfl

theorem map_fst_window (tape : Tape) (head : Nat) (radius : Int) :
    (tape.window head radius).map Prod.fst = windowPositions head radius := by
  rw [window, List.map_map]
  exact List.map_id _

end Tape

/-! ## Cells -/

/-- The text without the characters that the console would act on. -/
def Text.Loose.displayed (t : Loose) : Loose := .ofPoints (t.points.filter (!isConsoleControl ·))

/-- Has the cell a style of its own? -/
def Cell.isHighlighted : Cell → Bool
  | .markup _ => false
  | .styled _ style => style ≠ ""

namespace Machine

variable {m : Machine} {radius : Nat}

/-- The window lists the positions around the head, each once and in ascending order, and with each
what the text of the tape has there, or the blank behind it. -/
structure WindowShowsText (m : Machine) (radius : Nat) : Prop where
  mem_iff : ∀ i : Nat, i ∈ (m.window radius).map Prod.fst ↔
    (m.head : Int) - radius ≤ i ∧ (i : Int) ≤ m.head + radius
  ascending : ((m.window radius).map Prod.fst).Pairwise (· < ·)
  mark_eq : ∀ p ∈ m.window radius,
    p.2 = .ofPoints [(m.tape.contents.points[p.1]?).getD (.char blankChar)]

/-- The drawing is a strip of the cells in the window, under their positions. One cell is
highlighted, the one under the position of the head; it shows the mark there between brackets, and
the others show theirs between spaces. `kept` says what is kept of a text. -/
structure IsStripOf (m : Machine) (radius : Nat) (kept : Loose → Loose) (d : Drawing) : Prop where
  headers_eq : d.headers = (m.window radius).map fun p => Loose.whole (toString p.1)
  rows_eq : ∃ cells, d.rows = [cells] ∧
    (d.headers.zip cells).filter (·.2.isHighlighted) = [(Loose.whole (toString m.head),
      .styled (kept ("[" ++ m.mark ++ "]")) ("bold " ++ m.status.colour))] ∧
    List.Forall₂ (fun p cell => p.1 ≠ m.head → cell = .styled (kept (" " ++ p.2 ++ " ")) "")
      (m.window radius) cells

theorem tapeCell_head (m : Machine) (mark : Mark) :
    m.tapeCell m.head mark =
      .styled (Loose.displayed ("[" ++ mark ++ "]")) ("bold " ++ m.status.colour) :=
  if_pos rfl

theorem tapeCell_of_ne {i : Nat} (h : i ≠ m.head) (mark : Mark) :
    m.tapeCell i mark = .styled (Loose.displayed (" " ++ mark ++ " ")) "" :=
  if_neg h

theorem isHighlighted_tapeCell (m : Machine) (i : Nat) (mark : Mark) :
    (m.tapeCell i mark).isHighlighted = decide (i = m.head) := by
  by_cases h : i = m.head
  · have hstyle : "bold " ++ m.status.colour ≠ "" := by cases m.status <;> decide
    rw [h, tapeCell_head]
    simp [Cell.isHighlighted, hstyle]
  · rw [tapeCell_of_ne h, decide_eq_false h]
    rfl

/-! ## When a strip is drawn -/

/-- Every position in the window is written if the last one is. -/
theorem isWritable_of_mem_window (h : Text.Integer.isWritable (m.head + radius) = true)
    {p : Nat × Mark} (hp : p ∈ m.window radius) : Text.Integer.isWritable p.1 = true := by
  have hmem : p.1 ∈ (m.window radius).map Prod.fst := List.mem_map_of_mem hp
  rw [window, Tape.map_fst_window, Tape.mem_windowPositions] at hmem
  exact Text.Integer.isWritable_of_le (by omega) h

theorem tapeHeaders_of_isWritable (h : Text.Integer.isWritable (m.head + radius) = true) :
    tapeHeaders (m.window radius) = .ok ((m.window radius).map fun p => toString p.1) := by
  rw [tapeHeaders, mapM_eq_ok_iff, List.forall₂_map_right_iff, List.forall₂_same]
  intro p hp
  exact Text.Integer.written_eq_ok_iff.2 ⟨isWritable_of_mem_window h hp, rfl⟩

theorem tapeHeaders_of_not_isWritable (h : ¬ Text.Integer.isWritable (m.head + radius) = true) :
    tapeHeaders (m.window radius) = .error ⟨⟩ := by
  cases hheaders : tapeHeaders (m.window radius) with
  | error e => rfl
  | ok headers =>
    have hlast : m.head + radius ∈ (m.window radius).map Prod.fst := by
      rw [window, Tape.map_fst_window, Tape.mem_windowPositions]
      omega
    obtain ⟨p, hp, hposition⟩ := List.mem_map.1 hlast
    obtain ⟨header, hheader⟩ := exists_ok_of_mem hheaders hp
    have hwritten : Text.Integer.written p.1 = .ok header := hheader
    rw [hposition] at hwritten
    exact absurd (Text.Integer.written_eq_ok_iff.1 hwritten).1 h

/-- The machine is drawn if the last position can be written. -/
theorem drawTape_eq (m : Machine) (radius : Nat) :
    m.drawTape radius =
      if Text.Integer.isWritable (m.head + radius) then
        .ok ⟨none, (m.window radius).map fun p => Loose.whole (toString p.1),
          m.tapeRows (m.window radius)⟩
      else .error ⟨⟩ := by
  unfold drawTape
  split
  · rename_i h
    have hmap : ((m.window radius).map fun p => toString p.1).map Loose.whole =
        (m.window radius).map fun p => Loose.whole (toString p.1) := List.map_map
    rw [tapeHeaders_of_isWritable h, ← hmap]
    rfl
  · rename_i h
    rw [tapeHeaders_of_not_isWritable h]
    rfl

/-! ## What a strip shows -/

theorem windowShowsText (hletters : m.tape.IsLettered) (radius : Nat) :
    m.WindowShowsText radius := by
  have hpositions : (m.window radius).map Prod.fst = Tape.windowPositions m.head radius :=
    Tape.map_fst_window m.tape m.head radius
  refine ⟨fun i => ?_, ?_, fun p hp => ?_⟩
  · rw [hpositions, Tape.mem_windowPositions]
  · rw [hpositions]
    exact Tape.pairwise_windowPositions m.head radius
  · obtain ⟨letter, hletter⟩ := hletters.exists_letters
    obtain ⟨i, -, rfl⟩ := List.mem_map.1 hp
    rw [hletter, ← Tape.inputCell_contents hletter]
    rfl

/-- The head is met once in the window, with the mark there. -/
theorem filter_window (m : Machine) (radius : Nat) :
    (m.window radius).filter (·.1 = m.head) = [(m.head, m.mark)] := by
  have hcomp : ((fun p : Nat × Mark => decide (p.1 = m.head)) ∘ fun i => (i, m.tape.read i)) =
      fun i => decide (i = m.head) := rfl
  rw [window, Tape.window, List.filter_map, hcomp, Tape.filter_windowPositions]
  rfl

/-- The strip of a machine shows the window, if what is kept of its texts is what the console
displays. -/
theorem isStripOf_tapeRows {kept : Loose → Loose}
    (hkept : ∀ p ∈ m.window radius, kept ("[" ++ p.2 ++ "]") = Loose.displayed ("[" ++ p.2 ++ "]") ∧
      kept (" " ++ p.2 ++ " ") = Loose.displayed (" " ++ p.2 ++ " ")) :
    m.IsStripOf radius kept ⟨none,
      (m.window radius).map fun p => Loose.whole (toString p.1), m.tapeRows (m.window radius)⟩ := by
  have hhead : (m.head, m.mark) ∈ m.window radius := by
    have hmem : (m.head, m.mark) ∈ (m.window radius).filter (·.1 = m.head) := by
      rw [filter_window]
      exact List.mem_singleton_self _
    exact List.mem_of_mem_filter hmem
  have hne : (m.window radius).isEmpty = false :=
    List.isEmpty_eq_false_iff.2 (List.ne_nil_of_mem hhead)
  refine ⟨rfl, (m.window radius).map fun p => m.tapeCell p.1 p.2, ?_, ?_, ?_⟩
  · rw [tapeRows, hne]
    rfl
  · -- the cells that are highlighted are those at the head
    have hcomp : ((fun c : Loose × Cell => c.2.isHighlighted) ∘ fun p : Nat × Mark =>
        (Loose.whole (toString p.1), m.tapeCell p.1 p.2)) = fun p => decide (p.1 = m.head) :=
      funext fun p => isHighlighted_tapeCell m p.1 p.2
    rw [List.zip_map', List.filter_map, hcomp, filter_window, List.map_singleton, tapeCell_head,
      (hkept _ hhead).1]
  · rw [List.forall₂_map_right_iff, List.forall₂_same]
    intro p hp hne
    rw [tapeCell_of_ne hne, (hkept p hp).2]

/-- No mark in the window is a character that the console would act on. -/
def IsDisplayed (m : Machine) (radius : Nat) : Prop :=
  ∀ p ∈ m.window radius, ∀ x ∈ p.2.points, isConsoleControl x = false

/-- A mark is displayed between signs that are. -/
theorem displayed_between {mark : Mark} (h : ∀ x ∈ mark.points, isConsoleControl x = false)
    {front back : String} (hfront : front = "[" ∨ front = " ") (hback : back = "]" ∨ back = " ") :
    Loose.displayed (front ++ mark ++ back) = front ++ mark ++ back := by
  have hall : ∀ x ∈ (Loose.whole front ++ mark ++ Loose.whole back).points,
      isConsoleControl x = false := by
    intro x hx
    rw [Loose.points_append, Loose.points_append, List.mem_append, List.mem_append] at hx
    obtain (hx | hx) | hx := hx
    · obtain rfl | rfl := hfront <;> revert x <;> decide +kernel
    · exact h x hx
    · obtain rfl | rfl := hback <;> revert x <;> decide +kernel
  rw [Loose.displayed, List.filter_eq_self.2 fun x hx => by rw [hall x hx]; rfl,
    Loose.ofPoints_points]

/-- Whatever is done to a machine, its window shows the text of its tape while its program is a
compiled one. It is drawn if the last position in the window can be written, as a strip of what the
console displays of the window. -/
theorem window_and_strip {source : String} {program : Program} {table : Table}
    {capacity : Option Nat} (hsource : Program.ofSource source = .ok program)
    (hm : ReachableFrom table capacity m) (htable : m.table = program.table) (radius : Nat) :
    m.WindowShowsText radius ∧
      (Text.Integer.isWritable (m.head + radius) = true → ∃ d, m.drawTape radius = .ok d ∧
        m.IsStripOf radius Loose.displayed d ∧
        (m.IsDisplayed radius → m.IsStripOf radius id d)) ∧
      (Text.Integer.isWritable (m.head + radius) = false → m.drawTape radius = .error ⟨⟩) := by
  have hcompiled : m.table.IsCompiled := by
    rw [htable]
    exact Program.isCompiled_of_ofSource hsource
  refine ⟨windowShowsText (isLettered_of_reachableFrom hm hcompiled) radius, fun h => ?_,
    fun h => ?_⟩
  · rw [drawTape_eq, if_pos h]
    refine ⟨_, rfl, isStripOf_tapeRows fun p _ => ⟨rfl, rfl⟩, fun hdisplayed => ?_⟩
    -- what is displayed of a text without signs that are dropped is the text
    apply isStripOf_tapeRows
    intro p hp
    have hmark := hdisplayed p hp
    exact ⟨(displayed_between hmark (.inl rfl) (.inl rfl)).symm,
      (displayed_between hmark (.inr rfl) (.inr rfl)).symm⟩
  · rw [drawTape_eq, h, if_neg Bool.false_ne_true]

/-- A program with one rule. -/
def plainProgram : Program :=
  let table := Program.tableOf [⟨"q0", "a", "a", "R", "ha", 0⟩]
  ⟨table, Graph.ofTable table⟩

theorem ofSource_plain : Program.ofSource "q0 a/a,R ha" = .ok plainProgram := by decide +kernel

/-- A machine that has loaded the bell and a letter, with its head on the bell. -/
def bellMachine : Machine := (ofTable plainProgram.table none).load "\x07a"

theorem reachableFrom_bell : ReachableFrom plainProgram.table none bellMachine :=
  .perform (.load "\x07a") .fresh

theorem drawTape_bell : bellMachine.drawTape 1 =
    .ok ⟨none, ["0", "1"], [[.styled "[]" "bold white", .styled " a " ""]]⟩ := by
  decide +kernel

theorem window_and_strip_bell :
    bellMachine.window 1 = [(0, Loose.whole "\x07"), (1, Loose.whole "a")] ∧ bellMachine.WindowShowsText 1 ∧
      bellMachine.IsStripOf 1 Loose.displayed
        ⟨none, ["0", "1"], [[.styled "[]" "bold white", .styled " a " ""]]⟩ := by
  obtain ⟨hwindow, hstrip, -⟩ := window_and_strip ofSource_plain reachableFrom_bell rfl 1
  obtain ⟨d, hd, hshown, -⟩ := hstrip (by decide +kernel)
  obtain rfl := Except.ok.inj (drawTape_bell.symm.trans hd)
  exact ⟨by decide +kernel, hwindow, hshown⟩

/-- The machine with its head moved to the last position that is written. -/
def farMachine : Machine :=
  bellMachine.perform (.setHead (Nat.pow 10 Text.Integer.digitLimit - 1 : Nat))

/-- A symbol is missing in one strip, and the other one is not drawn. -/
theorem exists_strips_unlike_window :
    (Program.ofSource "q0 a/a,R ha" = .ok plainProgram ∧
      ReachableFrom plainProgram.table none bellMachine ∧
      ReachableFrom plainProgram.table none farMachine) ∧
    (¬ ∃ d, bellMachine.drawTape 1 = .ok d ∧ bellMachine.IsStripOf 1 id d) ∧
    ¬ ∃ d, farMachine.drawTape 1 = .ok d ∧ farMachine.IsStripOf 1 id d := by
  refine ⟨⟨ofSource_plain, reachableFrom_bell, .perform _ reachableFrom_bell⟩, ?_, ?_⟩
  · rintro ⟨d, hd, hstrip⟩
    -- the highlighted cell lacks the sign
    obtain rfl := Except.ok.inj (drawTape_bell.symm.trans hd)
    obtain ⟨cells, hcells, hhighlighted, -⟩ := hstrip.rows_eq
    obtain rfl := List.head_eq_of_cons_eq hcells
    revert hhighlighted
    decide +kernel
  · rintro ⟨d, hd, -⟩
    -- the position right of the head is the first one that is too long
    have hlast : farMachine.head + 1 = Nat.pow 10 Text.Integer.digitLimit := by decide +kernel
    have hlong : Text.Integer.isWritable (farMachine.head + (1 : Nat)) = false := by
      rw [← Int.natCast_add, hlast]
      exact Text.Integer.isWritable_eq_false (Nat.le_refl _)
    have herror := drawTape_eq farMachine 1
    rw [hlong, if_neg Bool.false_ne_true] at herror
    exact absurd (herror.symm.trans hd) (by simp)

end Machine

end TapeMachine
