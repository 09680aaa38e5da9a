import TapeMachine.Machine.Basic

/-!
# Operations on machines

The public operations as data, so that statements can speak of every sequence of them. An operation
that is refused leaves the machine as it is.
-/

namespace TapeMachine

/-- An operation on a machine. -/
inductive Operation where
  | load (input : Text.Loose)
  | setHead (position : Int)
  | step
  | stepBack
  | run (bound : Int)
  | play
  | pause
  | compile (source : String)
  | setCapacity (capacity : Option Int)
  deriving DecidableEq, Repr

namespace Machine

/-- What an operation that may be refused makes of a machine. -/
def orUnchanged {ε : Type} (m : Machine) : Except ε Machine → Machine
  | .ok m' => m'
  | .error _ => m

/-- What holds of a machine and of whatever an operation makes of it holds after the operation. -/
theorem orUnchanged_of {ε : Type} {P : Machine → Prop} {m : Machine} {result : Except ε Machine}
    (hm : P m) (hresult : ∀ m', result = .ok m' → P m') : P (m.orUnchanged result) := by
  cases result with
  | ok m' => exact hresult m' rfl
  | error e => exact hm

/-- The machine after an operation. -/
def perform (m : Machine) : Operation → Machine
  | .load input => m.load input
  | .setHead position => m.orUnchanged (m.setHead position)
  | .step => m.step
  | .stepBack => m.stepBack
  | .run bound => (m.run bound).machine
  | .play => m.play
  | .pause => m.pause
  | .compile source => m.orUnchanged (m.compile source)
  | .setCapacity capacity => m.orUnchanged (m.setCapacity capacity)

/-- The machine after a sequence of operations. -/
def performAll (m : Machine) (operations : List Operation) : Machine :=
  operations.foldl perform m

/-! ## Operations that may be refused -/

variable {m m' : Machine}

theorem setHead_eq_ok {position : Int} (h : m.setHead position = .ok m') :
    0 ≤ position ∧ m' = restart { m with head := position.toNat, headAsTruth := false } := by
  unfold setHead at h
  split at h
  · contradiction
  · rename_i hposition
    exact ⟨Int.not_lt.1 hposition, (Except.ok.inj h).symm⟩

theorem compile_eq_ok {source : String} (h : m.compile source = .ok m') :
    ∃ program, Program.ofSource source = .ok program ∧ m' = m.install program := by
  unfold compile at h
  split at h
  · rename_i program hsource
    exact ⟨program, hsource, (Except.ok.inj h).symm⟩
  · contradiction

theorem setCapacity_eq_ok {capacity : Option Int} (h : m.setCapacity capacity = .ok m') :
    ∃ c, capacity? capacity = .ok c ∧ m' = { m with history := m.history.resize c } := by
  unfold setCapacity at h
  split at h
  · rename_i c hc
    exact ⟨c, hc, (Except.ok.inj h).symm⟩
  · contradiction

/-- The machines that operations can lead to, from a fresh one with a table. -/
inductive ReachableFrom (table : Table) (capacity : Option Nat) : Machine → Prop
  | fresh : ReachableFrom table capacity (ofTable table capacity)
  | perform {m : Machine} (operation : Operation) :
      ReachableFrom table capacity m → ReachableFrom table capacity (m.perform operation)

end Machine

end TapeMachine
