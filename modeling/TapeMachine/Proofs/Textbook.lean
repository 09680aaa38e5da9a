import Mathlib.Data.ENat.Lattice
import TapeMachine.Table.Basic

/-!
# The textbook machine

The machine of the textbooks, on a tape that is infinite to the right. Its tape is a function from
positions to characters and its program a partial function from states and characters to actions.
It stops when it enters the accepting state, when no action is given, and in front of a move to the
left from cell zero.

Nothing here shares a definition with a step of the engine: no map of written cells, no keys, no
look-ups. A character may be half of one, as in any input.
-/

namespace TapeMachine.Textbook

open TapeMachine.Text (CodePoint Loose)

/-- What to do in a state on a character. -/
structure Action where
  write : Char
  direction : Direction
  target : State
  deriving DecidableEq

/-- A partial transition function. -/
abbrev Control := State → CodePoint → Option Action

/-- The state, the position of the head, and what stands in each cell. -/
structure Description where
  state : State
  head : Nat
  cells : Nat → CodePoint

/-- The character under the head. -/
def Description.symbol (c : Description) : CodePoint := c.cells c.head

/-- The configuration that a run on an input starts from. -/
def start (input : Loose) : Description where
  state := startState
  head := 0
  cells i := (input.points[i]?).getD (.char blankChar)

/-- The configuration after an action. -/
def Description.act (c : Description) (a : Action) : Description where
  state := a.target
  head := ((c.head : Int) + a.direction.shift).toNat
  cells := Function.update c.cells c.head (.char a.write)

/-- The configuration after one transition; there is none where the machine stops. -/
def next? (δ : Control) (c : Description) : Option Description :=
  if c.state = acceptState then none
  else match δ c.state c.symbol with
    | none => none
    | some a => if a.direction = .left ∧ c.head = 0 then none else some (c.act a)

/-- The machine has not accepted, and no action is given. -/
def Stuck (δ : Control) (c : Description) : Prop :=
  c.state ≠ acceptState ∧ δ c.state c.symbol = none

/-- The machine has not accepted, and is to move to the left of cell zero. -/
def Crashes (δ : Control) (c : Description) : Prop :=
  c.state ≠ acceptState ∧ ∃ a, δ c.state c.symbol = some a ∧ a.direction = .left ∧ c.head = 0

/-! ## Runs -/

/-- The configuration after so many transitions, or after the last one if there are fewer. -/
def after (δ : Control) (c : Description) : Nat → Description
  | 0 => c
  | k + 1 => (next? δ (after δ c k)).getD (after δ c k)

/-- The number of transitions that a run makes before it stops. -/
noncomputable def length (δ : Control) (c : Description) : ℕ∞ :=
  ⨅ (k : ℕ) (_ : next? δ (after δ c k) = none), (k : ℕ∞)

variable {δ : Control} {c : Description}

theorem next?_of_accepted (h : c.state = acceptState) : next? δ c = none := if_pos h

theorem next?_of_stuck (h : Stuck δ c) : next? δ c = none := by
  rw [next?, if_neg h.1, h.2]

theorem next?_of_crashes (h : Crashes δ c) : next? δ c = none := by
  obtain ⟨hstate, a, ha, hleft⟩ := h
  rw [next?, if_neg hstate, ha]
  exact if_pos hleft

theorem after_succ {c' : Description} {k : Nat} (h : next? δ (after δ c k) = some c') :
    after δ c (k + 1) = c' := by
  rw [after, h]
  rfl

/-- A run stays where it stopped. -/
theorem after_of_stopped {k j : Nat} (h : next? δ (after δ c k) = none) (hkj : k ≤ j) :
    after δ c j = after δ c k := by
  induction hkj with
  | refl => rfl
  | step _ ih => rw [after, ih, h]; rfl

/-- A run makes as many transitions as there are configurations to go on from. -/
theorem le_length {k : Nat} (h : ∀ j < k, next? δ (after δ c j) ≠ none) :
    (k : ℕ∞) ≤ length δ c := by
  -- the length is the least number of transitions after which the run stops
  refine le_iInf₂ fun j hj => ?_
  by_contra hlt
  exact h j (by exact_mod_cast not_le.1 hlt) hj

theorem length_eq {k : Nat} (h : ∀ j < k, next? δ (after δ c j) ≠ none)
    (hk : next? δ (after δ c k) = none) : length δ c = k :=
  le_antisymm (iInf₂_le k hk) (le_length h)

/-! ## Tables as transition functions -/

/-- The transition is the rule for an action in a state on a character. -/
def IsRule (t : Transition) (q : State) (x : CodePoint) (a : Action) : Prop :=
  t.source = q ∧ Loose.whole t.read = .ofPoints [x] ∧ t.write = .singleton a.write ∧
    t.move = a.direction.letter ∧ t.target = a.target

/-- The transition function is the set of the rules of a table, keyed by state and character. -/
def IsControlOf (δ : Control) (table : Table) : Prop :=
  ∀ q x a, δ q x = some a ↔ ∃ t ∈ table.transitions, IsRule t q x a

/-- The action of a transition that writes one character and names a direction. -/
def action? (t : Transition) : Option Action :=
  match t.write.toList, t.direction? with
  | [w], some d => some ⟨w, d, t.target⟩
  | _, _ => none

/-- The transition function that the transitions of a table spell out. -/
def control (table : Table) : Control := fun q x =>
  (table.transitions.find? fun t => t.source = q ∧ Loose.whole t.read = .ofPoints [x]).bind action?

end TapeMachine.Textbook
