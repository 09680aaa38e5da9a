import TapeMachine.Proofs.CompiledTable
import TapeMachine.Proofs.LetteredTape
import TapeMachine.Proofs.Preservation

/-!
# Tapes in every state

A machine with a compiled program writes one character at a time, and so every cell of its tape
shows one. This is so whatever is done to it, since the tapes in its history are of that kind too. A
table put together by hand may write longer texts; to compile a program clears the tape and the
history of them.

## Main results

- `isKept_isLettered`: no operation breaks the invariant
- `isLettered_of_reachableFrom`: each cell of a machine with a compiled program shows one character
-/

namespace TapeMachine.Machine

/-- Single characters are all there is on the tape, and on those that a step back can restore. -/
structure IsLettered (m : Machine) : Prop where
  tape : m.tape.IsLettered
  snapshots : ∀ s ∈ m.history.kept, s.tape.IsLettered

variable {m : Machine}

/-- A machine that starts over has no history. -/
theorem isLettered_restart (h : m.tape.IsLettered) : m.restart.IsLettered where
  tape := h
  snapshots s hs := by simp [restart] at hs

theorem isLettered_load (m : Machine) (input : Text.Loose) : (m.load input).IsLettered :=
  isLettered_restart (Tape.isLettered_ofInput input)

namespace IsLettered

theorem remember (h : m.IsLettered) : m.remember.IsLettered := by
  refine ⟨h.tape, fun s hs => ?_⟩
  have hkept : s ∈ (m.history.push m.snapshot).kept := hs
  rw [History.kept_push] at hkept
  cases List.mem_cons.1 (List.mem_of_mem_take hkept) with
  | inl hnew =>
    rw [hnew]
    exact h.tape
  | inr hold => exact h.snapshots s hold

/-- A rule of the grammar writes one character. -/
theorem moveTo (h : m.IsLettered) (hcompiled : m.table.IsCompiled) {next : Configuration}
    (hfires : m.table.outcome m.configuration = .fires next) : (m.moveTo next).IsLettered := by
  obtain ⟨t, direction, position, hlookup, -, -, rfl⟩ := Table.exists_of_fires hfires
  obtain ⟨-, w, -, hwrite⟩ := hcompiled.exists_symbols (Table.lookup_matched hlookup).1
  refine ⟨?_, h.snapshots⟩
  show (m.tape.write m.head t.write).IsLettered
  rw [hwrite]
  exact h.tape.write m.head w

theorem step (h : m.IsLettered) (hcompiled : m.table.IsCompiled) : m.step.IsLettered := by
  cases hm : m.status.isTerminal with
  | true => rwa [step_of_terminal hm]
  | false =>
    rw [step_eq, hm, if_neg Bool.false_ne_true]
    cases houtcome : m.table.outcome m.configuration with
    -- the tape stays as it is unless a transition fires
    | accepts => exact ⟨h.tape, h.remember.snapshots⟩
    | rejects why => exact ⟨h.tape, h.remember.snapshots⟩
    | faults move => exact h.remember
    | fires next => exact ⟨(h.moveTo hcompiled houtcome).tape, h.remember.snapshots⟩

theorem stepBack (h : m.IsLettered) : m.stepBack.IsLettered := by
  unfold Machine.stepBack
  split
  · exact h
  · rename_i s history hpop
    have hkept := History.kept_of_pop? hpop
    refine ⟨h.snapshots s (by simp [hkept]), fun older holder => ?_⟩
    exact h.snapshots older (by rw [hkept]; exact List.mem_cons_of_mem s holder)

theorem resize (h : m.IsLettered) (capacity : Option Nat) :
    IsLettered { m with history := m.history.resize capacity } := by
  refine ⟨h.tape, fun s hs => ?_⟩
  have hkept : s ∈ (m.history.resize capacity).kept := hs
  rw [History.kept_resize] at hkept
  exact h.snapshots s (List.mem_of_mem_take hkept)

end IsLettered

/-- No operation puts anything but single characters on the tape of a machine with a compiled
program. -/
theorem isKept_isLettered : IsKept fun m => m.table.IsCompiled → m.IsLettered where
  load {m} input _ _ := isLettered_load m input
  place _ h hcompiled := isLettered_restart (h hcompiled).tape
  install {m} _ program _ _ _ :=
    isLettered_load { m with table := program.table, graph := program.graph } m.input
  step {m} h hcompiled := by
    rw [table_step] at hcompiled
    exact (h hcompiled).step hcompiled
  stepBack {m} h hcompiled := by
    rw [table_stepBack] at hcompiled
    exact (h hcompiled).stepBack
  play h := play_induction (P := fun m => m.table.IsCompiled → m.IsLettered)
    (fun _ _ _ hcompiled => ⟨(h hcompiled).tape, (h hcompiled).snapshots⟩) h
  pause h := pause_induction (P := fun m => m.table.IsCompiled → m.IsLettered)
    (fun _ _ _ hcompiled => ⟨(h hcompiled).tape, (h hcompiled).snapshots⟩) h
  resize capacity h hcompiled := (h hcompiled).resize capacity

/-- Whatever is done to a machine, each cell of its tape shows one character while its program is
one that was compiled. -/
theorem isLettered_of_reachableFrom {table : Table} {capacity : Option Nat}
    (hm : ReachableFrom table capacity m) (hcompiled : m.table.IsCompiled) :
    m.tape.IsLettered := by
  have hfresh : (ofTable table capacity).IsLettered :=
    isLettered_restart (m := ofTable table capacity) (Tape.isLettered_ofInput "")
  exact (isKept_isLettered.reachableFrom (fun _ => hfresh) hm hcompiled).tape

end TapeMachine.Machine
