import TapeMachine.Distinct
import TapeMachine.Rule.Basic

/-!
# Transition tables

A table holds transitions in order and finds them by state and symbol. Two transitions under one
key are possible in a table put together by hand: the later one is found, and the key keeps the
place of the earlier one.

A run looks a transition up at every step, so a table keeps them by key as well. `get?_eq_find?`
says what that is: the last transition with the key.
-/

namespace TapeMachine

/-- What a machine does in a state on a symbol, with its number in the program and the label that
diagrams show. -/
structure Transition where
  source : State
  read : Symbol
  write : Symbol
  move : String
  target : State
  index : Int
  label : String
  deriving DecidableEq, Repr

namespace Transition

/-- The name under which the transition is looked up. -/
def key (t : Transition) : String := lookupKey t.source t.read

/-- The direction of the move, if it is one. -/
def direction? (t : Transition) : Option Direction := Direction.ofLetter? t.move

/-- The transition that a rule stands for, at its number in the program. -/
def ofRule (r : Rule) (index : Nat) : Transition :=
  ⟨r.source, r.read, r.write, r.move, r.target, index, r.label⟩

end Transition

/-- The transitions by their keys; of several under one key, the last. -/
def Transition.byKey (transitions : List Transition) : Std.ExtTreeMap String Transition :=
  transitions.foldl (fun found t => found.insert t.key t) ∅

/-- A transition table. -/
structure Table where
  transitions : List Transition
  /-- The transitions as they are found. -/
  found : Std.ExtTreeMap String Transition
  found_eq : found = Transition.byKey transitions

/-- What a table says about a state and a symbol. -/
inductive Lookup where
  /-- This transition applies. -/
  | matched (t : Transition)
  /-- None applies, in the accepting state. -/
  | implicitAccept
  /-- None applies, in any other state. -/
  | implicitReject
  deriving DecidableEq, Repr

/-- The transition that applies, if one does. -/
def Lookup.transition? : Lookup → Option Transition
  | .matched t => some t
  | _ => none

namespace Table

/-- The table of transitions in order. -/
def ofList (transitions : List Transition) : Table :=
  ⟨transitions, Transition.byKey transitions, rfl⟩

/-- The table without transitions. -/
def empty : Table := ofList []

/-- A table is told by its transitions. -/
@[ext] theorem ext {t u : Table} (h : t.transitions = u.transitions) : t = u := by
  obtain ⟨ts, _, rfl⟩ := t
  obtain ⟨us, _, rfl⟩ := u
  cases h
  rfl

instance : DecidableEq Table := fun t u =>
  if h : t.transitions = u.transitions then isTrue (ext h) else isFalse fun e => h (e ▸ rfl)

/-- The transition under a key: the last one, if there are several. -/
def get? (table : Table) (key : String) : Option Transition := table.found[key]?

/-- The keys, each once, in order of first appearance. -/
def keys (table : Table) : List String := distinct (table.transitions.map (·.key))

/-- The keys with the transitions found under them. -/
def entries (table : Table) : List (String × Transition) :=
  table.keys.filterMap fun key => (table.get? key).map ((key, ·))

/-- The number of keys. -/
def size (table : Table) : Nat := table.keys.length

/-- Is there a transition under the key? -/
def contains (table : Table) (key : String) : Bool := (table.get? key).isSome

/-- What happens in a state on a mark. A mark that is no text is no symbol, and nothing reads it. -/
def lookup (table : Table) (state : State) (mark : Mark) : Lookup :=
  match mark.text?.bind fun symbol => table.get? (lookupKey state symbol) with
  | some t => .matched t
  | none => if state = acceptState then .implicitAccept else .implicitReject

/-- A short description of a table. -/
def summary (table : Table) : String :=
  "TransitionTable(" ++ toString table.size ++ " transitions)"

/-- Every move is one of the three directions. -/
def HasDirections (table : Table) : Prop := ∀ t ∈ table.transitions, t.direction?.isSome

instance (table : Table) : Decidable table.HasDirections :=
  inferInstanceAs (Decidable (∀ t ∈ table.transitions, t.direction?.isSome))

theorem getElem?_foldr_insert (transitions : List Transition) (key : String) :
    (transitions.foldr (fun t found => found.insert t.key t)
        (∅ : Std.ExtTreeMap String Transition))[key]? =
      transitions.find? (·.key == key) := by
  induction transitions with
  | nil => simp
  | cons t rest ih =>
    simp only [List.foldr_cons, Std.ExtTreeMap.getElem?_insert, ih, List.find?_cons,
      Std.compare_eq_iff_eq]
    by_cases h : t.key = key
    · simp [h]
    · simp [h, beq_false_of_ne h]

/-- What is found under a key is the last transition that has it. -/
theorem get?_eq_find? (table : Table) (key : String) :
    table.get? key = table.transitions.reverse.find? (·.key == key) := by
  rw [get?, table.found_eq, Transition.byKey, List.foldl_eq_foldr_reverse, getElem?_foldr_insert]

/-- What is found under a key belongs to the table and has that key. -/
theorem get?_some {table : Table} {key : String} {t : Transition}
    (h : table.get? key = some t) : t ∈ table.transitions ∧ t.key = key := by
  rw [get?_eq_find?] at h
  have h₁ := List.mem_of_find?_eq_some h
  have h₂ := List.find?_some h
  exact ⟨List.mem_reverse.1 h₁, by simpa using h₂⟩

/-- Nothing is found under a key exactly when no transition has it. -/
theorem get?_eq_none {table : Table} {key : String} :
    table.get? key = none ↔ ∀ t ∈ table.transitions, t.key ≠ key := by
  simp [get?_eq_find?, List.find?_eq_none]

/-- A transition that applies belongs to the table, and stands under the key looked up. -/
theorem lookup_matched {table : Table} {state : State} {mark : Mark} {t : Transition}
    (h : table.lookup state mark = .matched t) :
    t ∈ table.transitions ∧ ∃ symbol, mark.text? = some symbol ∧ t.key = lookupKey state symbol := by
  unfold lookup at h
  split at h
  · rename_i found
    obtain ⟨symbol, hsymbol, hget⟩ := Option.bind_eq_some_iff.1 found
    obtain rfl : _ = t := Lookup.matched.inj h
    exact ⟨(get?_some hget).1, symbol, hsymbol, (get?_some hget).2⟩
  · split at h <;> contradiction

theorem lookup_implicitAccept {table : Table} {state : State} {mark : Mark}
    (h : table.lookup state mark = .implicitAccept) : state = acceptState := by
  unfold lookup at h
  split at h
  · contradiction
  · split at h
    · assumption
    · contradiction

/-- If no transition applies, the state decides. -/
theorem lookup_of_unmatched {table : Table} {state : State} {mark : Mark}
    (h : ∀ t, table.lookup state mark ≠ .matched t) :
    table.lookup state mark =
      if state = acceptState then .implicitAccept else .implicitReject := by
  unfold lookup at h ⊢
  split
  · rename_i t hfound
    simp [hfound] at h
  · rfl

end Table

end TapeMachine
