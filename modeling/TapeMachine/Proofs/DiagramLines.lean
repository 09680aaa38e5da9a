import Mathlib.Data.List.Basic
import TapeMachine.Proofs.OctetLines
import TapeMachine.Proofs.RuleGrammar

/-!
# Reading the lines of a diagram

A diagram is a text of lines with line feeds between them, each put together from fixed signs and
names. It is read back line by line and from the front: a fixed part is taken off, and a name goes
up to the next sign that cannot stand in it.

## Main results

- `Text.splitAt_intercalate`: lines that are joined are cut apart again
- `Text.after?_append`, `Text.cutAt_append`: what is taken off a line
- `Rule.Word.not_mem`: no sign stands in a word
-/

namespace TapeMachine

namespace Text

/-- Texts without a mark, with the mark between any two of them, are cut apart again. -/
theorem splitAt_intercalate {mark : Char} {separator : String} (hmark : separator.toList = [mark])
    {ls : List String} (hne : ls ≠ []) (h : ∀ l ∈ ls, mark ∉ l.toList) :
    splitAt mark (separator.intercalate ls).toList = ls.map String.toList := by
  induction ls with
  | nil => contradiction
  | cons l ls ih =>
    have hl := h l List.mem_cons_self
    cases ls with
    | nil => rw [String.intercalate_singleton, splitAt_of_not_mem hl, List.map_singleton]
    | cons l' ls =>
      have hrest := ih (List.cons_ne_nil l' ls) fun k hk => h k (List.mem_cons_of_mem l hk)
      have hsplit : (separator.intercalate (l :: l' :: ls)).toList =
          l.toList ++ mark :: (separator.intercalate (l' :: ls)).toList := by
        simp [hmark]
      rw [hsplit, splitAt_append_mark, splitAt_of_not_mem hl, hrest]
      rfl

/-- The lines of a diagram. -/
def diagramLines (text : String) : List (List Char) := splitAt '\n' text.toList

/-! ## Taking parts off a line -/

/-- What stands behind a fixed part, if the text starts with it. -/
def after? (front : String) (cs : List Char) : Option (List Char) := front.toList.isPrefixOf? cs

theorem after?_append (front : String) (cs : List Char) :
    after? front (front.toList ++ cs) = some cs := by
  simp [after?]

/-- What stands in front of the first mark, and what stands behind it. -/
def cutAt (mark : Char) (cs : List Char) : List Char × List Char :=
  (cs.takeWhile (· ≠ mark), (cs.dropWhile (· ≠ mark)).tail)

theorem cutAt_append {mark : Char} {front : List Char} (h : mark ∉ front) (rest : List Char) :
    cutAt mark (front ++ mark :: rest) = (front, rest) := by
  have hfront : ∀ c ∈ front, decide (c ≠ mark) = true := by
    intro c hc
    exact decide_eq_true fun e => h (e ▸ hc)
  have hstops : Rule.Stops (fun c => decide (c ≠ mark)) (mark :: rest) := Rule.stops_cons (by simp)
  rw [cutAt, Rule.takeWhile_append_of_stops hfront hstops,
    Rule.dropWhile_append_of_stops hfront hstops]
  rfl

/-- A sign that nothing else is replaced by does not come in by replacing. -/
theorem not_mem_flatMap {mark : Char} {f : Char → List Char} {cs : List Char}
    (hf : ∀ c, mark ∈ f c → mark = c) (h : mark ∉ cs) : mark ∉ cs.flatMap f := by
  intro hmem
  obtain ⟨c, hc, hmark⟩ := List.mem_flatMap.1 hmem
  exact h (hf c hmark ▸ hc)

end Text

/-- A sign that is no word character does not stand in a word. -/
theorem Rule.Word.not_mem {cs : List Char} (h : Rule.Word cs) {c : Char}
    (hc : Text.isWord c = false) : c ∉ cs := by
  intro hmem
  rw [h.2 c hmem] at hc
  contradiction

end TapeMachine
