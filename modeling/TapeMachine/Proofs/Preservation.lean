import TapeMachine.Proofs.Configuration

/-!
# Properties that every operation keeps

Whether an operation is refused, and how often a run steps, is looked into here once. A property of
machines is kept by all operations if it is kept by the changes that they are made of.

## Main results

- `IsKept.perform`: what the changes keep, an operation keeps, refused or not
- `IsKept.performAll`, `IsKept.reachableFrom`: so does a sequence of operations
-/

namespace TapeMachine.Machine

/-- A property that no change takes from a machine. -/
structure IsKept (P : Machine → Prop) : Prop where
  load : ∀ {m : Machine} (input : Text.Loose), P m → P (m.load input)
  place : ∀ {m : Machine} (position : Nat), P m →
    P (restart { m with head := position, headAsTruth := false })
  install : ∀ {m : Machine} {source : String} {program : Program},
    Program.ofSource source = .ok program → P m → P (m.install program)
  step : ∀ {m : Machine}, P m → P m.step
  stepBack : ∀ {m : Machine}, P m → P m.stepBack
  play : ∀ {m : Machine}, P m → P m.play
  pause : ∀ {m : Machine}, P m → P m.pause
  resize : ∀ {m : Machine} (capacity : Option Nat), P m →
    P { m with history := m.history.resize capacity }

namespace IsKept

variable {P : Machine → Prop} {m : Machine}

theorem perform (h : IsKept P) (hm : P m) (operation : Operation) : P (m.perform operation) := by
  -- what is refused changes nothing, so only what is carried out needs the invariant
  cases operation with
  | load input => exact h.load input hm
  | setHead position =>
    refine orUnchanged_of hm fun m' hm' => ?_
    obtain ⟨-, rfl⟩ := setHead_eq_ok hm'
    exact h.place position.toNat hm
  | step => exact h.step hm
  | stepBack => exact h.stepBack hm
  | run bound => exact runFrom_induction (P := P) (fun _ => h.step) 0 bound.toNat hm
  | play => exact h.play hm
  | pause => exact h.pause hm
  | compile source =>
    refine orUnchanged_of hm fun m' hm' => ?_
    obtain ⟨program, hsource, rfl⟩ := compile_eq_ok hm'
    exact h.install hsource hm
  | setCapacity capacity =>
    refine orUnchanged_of hm fun m' hm' => ?_
    obtain ⟨c, -, rfl⟩ := setCapacity_eq_ok hm'
    exact h.resize c hm

theorem performAll (h : IsKept P) (hm : P m) (operations : List Operation) :
    P (m.performAll operations) := by
  induction operations generalizing m with
  | nil => exact hm
  | cons operation rest ih => exact ih (h.perform hm operation)

theorem reachableFrom (h : IsKept P) {table : Table} {capacity : Option Nat}
    (hfresh : P (ofTable table capacity)) (hm : ReachableFrom table capacity m) : P m := by
  induction hm with
  | fresh => exact hfresh
  | perform operation _ ih => exact h.perform ih operation

end IsKept

end TapeMachine.Machine
