import TapeMachine.Proofs.Configuration

/-!
# Taking steps back

A step that is made while the machine has not halted puts the configuration it starts from into the
history, whatever comes of the step. So the newest snapshots are those of the machines the steps
started from, and as many steps can be taken back as the history has room for.

## Main results

- `history_step`: every step that is made is put into the history
- `getElem?_kept_iterate_step`: which snapshots the history keeps after some steps
- `standsAs_iterate_stepBack`: what some steps back restore, snapshot by snapshot
- `stepBack_iterate_restores`: steps back lead to the machine after fewer steps, and no further than
  the history reaches
-/

namespace TapeMachine

namespace Machine

variable {m : Machine}

/-! ## The history of steps -/

/-- Every step that is made is put into the history, whatever comes of it. -/
theorem history_step (hm : m.status.isTerminal = false) :
    m.step.history = m.history.push m.snapshot := by
  rw [step_eq, hm, if_neg Bool.false_ne_true]
  split <;> rfl

theorem capacity_iterate_step (m : Machine) (n : Nat) :
    (step^[n] m).history.capacity = m.history.capacity := by
  induction n generalizing m with
  | zero => rfl
  | succ n ih => rw [Function.iterate_succ_apply, ih, capacity_step]

/-- After some steps the newest snapshots are those of the machines that the steps started from. -/
theorem getElem?_kept_iterate_step {n : Nat}
    (h : ∀ i < n, (step^[i] m).status.isTerminal = false) {i : Nat}
    (hi : i < History.allowed m.history.capacity n) :
    (step^[n] m).history.kept[i]? = some (step^[n - 1 - i] m).snapshot := by
  induction n generalizing i with
  | zero => exact absurd (Nat.lt_of_lt_of_le hi (History.allowed_le _ _)) (Nat.not_lt_zero i)
  | succ n ih =>
    have hearlier : ∀ i < n, (step^[i] m).status.isTerminal = false :=
      fun i hi => h i (Nat.lt_succ_of_lt hi)
    have hcapacity := capacity_iterate_step m n
    rw [Function.iterate_succ_apply', history_step (h n (Nat.lt_succ_self n)), History.kept_push,
      hcapacity, List.getElem?_take]
    cases i with
    | zero =>
      have hroom := History.lt_allowed_succ hi (Nat.zero_le (step^[n] m).history.size)
      rw [if_pos hroom, List.getElem?_cons_zero]
      rfl
    | succ i =>
      -- the older snapshots move one place on, and there is room for them as before
      have hkept := ih hearlier (History.lt_allowed_of_succ hi)
      have hsize : i < (step^[n] m).history.size := by
        have hlength := (List.getElem?_eq_some_iff.1 hkept).1
        rwa [History.length_kept] at hlength
      have hroom := History.lt_allowed_succ hi (Nat.succ_le_of_lt hsize)
      have hplace : n + 1 - 1 - (i + 1) = n - 1 - i := by omega
      rw [if_pos hroom, List.getElem?_cons_succ, hkept, hplace]

/-! ## Steps that are made -/

/-- How many of the next `n` steps are asked for while the machine has not halted. -/
def stepsMade (m : Machine) (n : Nat) : Nat :=
  (List.range n).countP fun i => !(step^[i] m).halted

theorem stepsMade_succ (m : Machine) (n : Nat) :
    m.stepsMade (n + 1) = m.stepsMade n + if (step^[n] m).halted then 0 else 1 := by
  rw [stepsMade, List.range_succ, List.countP_append]
  cases hm : (step^[n] m).halted with
  | true => simp [stepsMade, hm]
  | false => simp [stepsMade, hm]

/-- A machine that has not halted had not halted before. -/
theorem not_terminal_of_iterate {n i : Nat} (h : (step^[n] m).status.isTerminal = false)
    (hi : i ≤ n) : (step^[i] m).status.isTerminal = false := by
  cases hm : (step^[i] m).status.isTerminal with
  | false => rfl
  | true =>
    obtain ⟨k, rfl⟩ := Nat.exists_eq_add_of_le' hi
    rw [Function.iterate_add_apply, iterate_step_of_terminal hm, hm] at h
    exact h

theorem stepsMade_of_not_terminal {n : Nat} (h : (step^[n] m).status.isTerminal = false) :
    m.stepsMade n = n := by
  have hall : ∀ i ∈ List.range n, (!(step^[i] m).halted) = true := by
    intro i hi
    have hlt := List.mem_range.1 hi
    rw [halted, not_terminal_of_iterate h (Nat.le_of_lt hlt)]
    rfl
  rw [stepsMade, List.countP_eq_length.2 hall, List.length_range]

/-- The machine halts before the steps that are not made, if there are any. -/
theorem iterate_step_stepsMade (m : Machine) (n : Nat) :
    step^[n] m = step^[m.stepsMade n] m ∧
      ∀ i < m.stepsMade n, (step^[i] m).status.isTerminal = false := by
  induction n with
  | zero => exact ⟨rfl, fun i hi => absurd hi (Nat.not_lt_zero i)⟩
  | succ n ih =>
    obtain ⟨hsame, hrunning⟩ := ih
    -- a machine that has halted makes no step any more, and is not changed by one
    cases hm : (step^[n] m).status.isTerminal with
    | true =>
      have hmade : m.stepsMade (n + 1) = m.stepsMade n := by
        rw [stepsMade_succ, halted, hm]
        rfl
      rw [hmade]
      refine ⟨?_, hrunning⟩
      rw [Function.iterate_succ_apply', step_of_terminal hm, hsame]
    | false =>
      have hmade : m.stepsMade (n + 1) = n + 1 := by
        rw [stepsMade_succ, halted, hm, stepsMade_of_not_terminal hm]
        rfl
      rw [hmade]
      exact ⟨rfl, fun i hi => not_terminal_of_iterate hm (Nat.le_of_lt_succ hi)⟩

/-! ## Steps back -/

/-- The machine stands where another one does, and has come as far. -/
structure StandsAs (m other : Machine) : Prop where
  tape : m.tape = other.tape
  head : m.head = other.head
  headAsTruth : m.headAsTruth = other.headAsTruth
  state : m.state = other.state
  stepCount : m.stepCount = other.stepCount

theorem StandsAs.refl (m : Machine) : m.StandsAs m := ⟨rfl, rfl, rfl, rfl, rfl⟩

/-- The machine is paused, and nothing is wrong with it. -/
def IsPaused (m : Machine) : Prop := m.status = .paused ∧ m.lastError = none

theorem stepBack_of_kept_eq_nil (h : m.history.kept = []) : m.stepBack = m := by
  unfold stepBack
  cases hpop : m.history.pop? with
  | none => rfl
  | some p =>
    have hkept := History.kept_of_pop? hpop
    rw [h] at hkept
    contradiction

/-- A step back takes the newest snapshot out of the history. -/
theorem kept_stepBack (m : Machine) : m.stepBack.history.kept = m.history.kept.tail := by
  cases hkept : m.history.kept with
  | nil => rw [stepBack_of_kept_eq_nil hkept, hkept, List.tail_nil]
  | cons s kept =>
    obtain ⟨rest, hpop, hrest⟩ := History.exists_pop?_of_kept hkept
    unfold stepBack
    rw [hpop]
    exact hrest

theorem kept_iterate_stepBack (m : Machine) (k : Nat) :
    (stepBack^[k] m).history.kept = m.history.kept.drop k := by
  induction k with
  | zero => rfl
  | succ k ih => rw [Function.iterate_succ_apply', kept_stepBack, ih, List.tail_drop]

/-- A step back restores the newest snapshot. -/
theorem standsAs_stepBack {origin : Machine}
    (h : m.history.kept[0]? = some origin.snapshot) :
    m.stepBack.StandsAs origin ∧ m.stepBack.IsPaused := by
  cases hkept : m.history.kept with
  | nil =>
    rw [hkept] at h
    contradiction
  | cons s kept =>
    rw [hkept, List.getElem?_cons_zero] at h
    obtain rfl := Option.some.inj h
    obtain ⟨rest, hpop, -⟩ := History.exists_pop?_of_kept hkept
    unfold stepBack
    rw [hpop]
    exact ⟨⟨rfl, rfl, rfl, rfl, rfl⟩, rfl, rfl⟩

/-- So many steps back restore the snapshot that lies so deep in the history. -/
theorem standsAs_iterate_stepBack {k : Nat} {origin : Machine}
    (h : m.history.kept[k]? = some origin.snapshot) :
    (stepBack^[k + 1] m).StandsAs origin ∧ (stepBack^[k + 1] m).IsPaused := by
  rw [Function.iterate_succ_apply']
  apply standsAs_stepBack
  rw [kept_iterate_stepBack, List.getElem?_drop, Nat.add_zero, h]

/-- Behind the oldest snapshot a step back changes nothing. -/
theorem iterate_stepBack_of_size_le {k j : Nat} (hj : m.history.size ≤ j) (hk : j ≤ k) :
    stepBack^[k] m = stepBack^[j] m := by
  obtain ⟨i, rfl⟩ := Nat.exists_eq_add_of_le' hk
  have hempty : (stepBack^[j] m).history.kept = [] := by
    rw [kept_iterate_stepBack, List.drop_eq_nil_iff, History.length_kept]
    exact hj
  rw [Function.iterate_add_apply]
  exact Function.iterate_fixed (stepBack_of_kept_eq_nil hempty) i

/-! ## Steps and as many back -/

/-- The machine has just been started over, with another input or at another position. -/
inductive IsRestarted : Machine → Prop
  | load (m : Machine) (input : Text.Loose) : IsRestarted (m.load input)
  | setHead {m m' : Machine} {position : Int} :
    m.setHead position = .ok m' → IsRestarted m'
  | setHeadTruth (m : Machine) (position : Bool) : IsRestarted (m.setHeadTruth position)

theorem IsRestarted.size_eq_zero (h : m.IsRestarted) : m.history.size = 0 := by
  cases h with
  | load m input => rfl
  | setHead hposition =>
    obtain ⟨-, rfl⟩ := setHead_eq_ok hposition
    rfl
  | setHeadTruth m position => rfl

/-- The steps that are made are all that an empty history comes to hold. -/
theorem size_iterate_step_le (hm : m.history.size = 0) {n : Nat}
    (h : ∀ i < n, (step^[i] m).status.isTerminal = false) :
    (step^[n] m).history.size ≤ History.allowed m.history.capacity n := by
  induction n with
  | zero =>
    rw [Function.iterate_zero_apply, hm]
    exact Nat.zero_le _
  | succ n ih =>
    have hsize := ih fun i hi => h i (Nat.lt_succ_of_lt hi)
    have hle := Nat.le_trans hsize (History.allowed_le _ n)
    rw [Function.iterate_succ_apply', history_step (h n (Nat.lt_succ_self n)),
      History.size_push, capacity_iterate_step]
    exact History.allowed_mono _ (Nat.succ_le_succ hle)

/-- After `n` steps, as many steps back as were made and as the history has room for lead to the
machine after that many steps less. If the machine had just been started over, no further steps back
lead anywhere. -/
theorem stepBack_iterate_restores (m : Machine) (n : Nat) :
    (∀ k ≤ History.allowed m.history.capacity (m.stepsMade n),
      (stepBack^[k] (step^[n] m)).StandsAs (step^[m.stepsMade n - k] m) ∧
      (1 ≤ k → (stepBack^[k] (step^[n] m)).IsPaused)) ∧
    (m.IsRestarted → ∀ k, History.allowed m.history.capacity (m.stepsMade n) ≤ k →
      stepBack^[k] (step^[n] m) =
        stepBack^[History.allowed m.history.capacity (m.stepsMade n)] (step^[n] m)) := by
  -- the steps that are not made do not matter
  obtain ⟨hsame, hrunning⟩ := iterate_step_stepsMade m n
  rw [hsame]
  constructor
  · intro k hk
    cases k with
    | zero => exact ⟨StandsAs.refl _, fun hpos => absurd hpos (Nat.not_succ_le_zero 0)⟩
    | succ k =>
      have hkept := getElem?_kept_iterate_step hrunning (Nat.lt_of_succ_le hk)
      have hplace : m.stepsMade n - 1 - k = m.stepsMade n - (k + 1) := by omega
      rw [hplace] at hkept
      obtain ⟨hstands, hpaused⟩ := standsAs_iterate_stepBack hkept
      exact ⟨hstands, fun _ => hpaused⟩
  · intro hm k hk
    have hsize := size_iterate_step_le hm.size_eq_zero hrunning
    exact iterate_stepBack_of_size_le hsize hk

/-- A table that replaces one symbol and then knows no way on. -/
def replacingTable : Table := .ofList [⟨"q0", "a", "b", "R", "q1", 0, "a/b,R"⟩]

/-- A machine that may remember one step, with two symbols before it. -/
def replacingMachine : Machine := (ofTable replacingTable (some 1)).load "aa"

/-- Of four steps two are made, the second of which rejects. One of them can be taken back, and what
it leads to is the machine after the first. -/
theorem stepBack_iterate_restores_replacing :
    replacingMachine.stepsMade 4 = 2 ∧ (step^[4] replacingMachine).status = .rejected ∧
    (stepBack^[1] (step^[4] replacingMachine)).StandsAs (step^[1] replacingMachine) ∧
    (stepBack^[1] (step^[4] replacingMachine)).IsPaused ∧
    stepBack^[3] (step^[4] replacingMachine) = stepBack^[1] (step^[4] replacingMachine) := by
  have hmade : replacingMachine.stepsMade 4 = 2 := by decide +kernel
  have hreach : History.allowed replacingMachine.history.capacity
      (replacingMachine.stepsMade 4) = 1 := by rw [hmade]; rfl
  obtain ⟨hrestored, hfurther⟩ := stepBack_iterate_restores replacingMachine 4
  rw [hreach] at hrestored hfurther
  obtain ⟨hstands, hpaused⟩ := hrestored 1 (Nat.le_refl 1)
  rw [hmade] at hstands
  refine ⟨hmade, by decide +kernel, hstands, hpaused (Nat.le_refl 1), ?_⟩
  exact hfurther (.load _ _) 3 (by decide)

end Machine

end TapeMachine
