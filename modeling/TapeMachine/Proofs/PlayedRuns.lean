import TapeMachine.Machine.Playback
import TapeMachine.Proofs.PlayAndPause
import TapeMachine.Proofs.RepeatedSteps

/-!
# A played machine makes a run, up to an interrupt

A playback makes one step after the other, and a pause after each step that does not halt. So it
pauses once less than it steps if it comes to the end, and as often if a pause is interrupted. What
it makes of the machine is what a run makes of it, since being played only changes what is said
about a machine.

One beat can end a playback in three ways. Those that do not are gone through here once
(`beats_add`); how a playback ends is then the beat behind them.

## Main results

- `playback_of_interrupt`, `playback_of_haltsAt`, `playback_of_fault`: the record of a playback
- `cutsRun_of_pauseLength`: a playback is a run that is cut at the interrupt and can be taken up
  again
- `playback_of_endless`, `playback_of_endlessPause`: no run is made on a beat that cannot be kept
-/

namespace TapeMachine

namespace Machine

variable {m u : Machine}

/-! ## What is said about a machine that is played -/

theorem iterate_step_atRest (m : Machine) (n : Nat) : step^[n] m.atRest = (step^[n] m).atRest := by
  induction n generalizing m with
  | zero => rfl
  | succ n ih => rw [Function.iterate_succ_apply, step_atRest, ih, Function.iterate_succ_apply]

theorem atRest_iterate_step_play (m : Machine) (n : Nat) :
    (step^[n] m.play).atRest = (step^[n] m).atRest := by
  rw [← iterate_step_atRest, atRest_play, iterate_step_atRest]

/-- Machines that are the same at rest fail alike. -/
theorem fault?_congr (h : m.atRest = u.atRest) : m.fault? = u.fault? := by
  rw [← fault?_atRest, h, fault?_atRest]

/-- Machines that are the same at rest have halted both or neither. -/
theorem isTerminal_congr (h : m.atRest = u.atRest) :
    m.status.isTerminal = u.status.isTerminal := by
  rw [← isTerminal_status_atRest, h, isTerminal_status_atRest]

/-- What has halted says nothing, and stands where it stands at rest. -/
theorem standing_congr (h : m.atRest = u.atRest) (hm : m.status.isTerminal = true) :
    m.standing = u.standing := by
  have hu : u.status.isTerminal = true := by rw [← isTerminal_congr h, hm]
  have hstanding := congrArg standing h
  rwa [standing_atRest, standing_atRest, Standing.atRest_of_terminal (s := m.standing) hm,
    Standing.atRest_of_terminal (s := u.standing) hu] at hstanding

theorem fault?_iterate_step_play (m : Machine) (n : Nat) :
    (step^[n] m.play).fault? = (step^[n] m).fault? :=
  fault?_congr (atRest_iterate_step_play m n)

theorem isTerminal_iterate_step_play (m : Machine) (n : Nat) :
    (step^[n] m.play).status.isTerminal = (step^[n] m).status.isTerminal :=
  isTerminal_congr (atRest_iterate_step_play m n)

theorem HaltsAt.congr {n : Nat} (h : m.atRest = u.atRest) (hm : m.HaltsAt n) : u.HaltsAt n := by
  have hsame : ∀ j, (Machine.step^[j] m).halted = (Machine.step^[j] u).halted := by
    intro j
    apply isTerminal_congr
    rw [← iterate_step_atRest, h, iterate_step_atRest]
  exact ⟨by rw [← hsame, hm.halted], fun j hj => by rw [← hsame, hm.running j hj]⟩

/-- A running machine is running after a step, unless the step halts. -/
theorem status_step_of_running (hm : m.status = .running)
    (hstep : m.step.status.isTerminal = false) : m.step.status = .running := by
  rw [step_eq, hm, if_neg (by decide)] at hstep ⊢
  cases houtcome : m.table.outcome m.configuration with
  | accepts => simp [houtcome, Status.isTerminal] at hstep
  | rejects why => simp [houtcome, reject, Status.isTerminal] at hstep
  | faults move => exact hm
  | fires next =>
    by_cases hnext : next.state = acceptState
    · simp [houtcome, moveTo, hnext, Status.isTerminal] at hstep
    · simpa [moveTo, hnext, remember] using hm

/-- A machine that is played keeps running until it halts. -/
theorem status_iterate_step_play {n : Nat} (hn : (step^[n] m).status.isTerminal = false) :
    (step^[n] m.play).status = .running := by
  induction n with
  | zero => simp_all [play]
  | succ n ih =>
    -- it has not halted with the last step, so it had not before
    have hopen := not_terminal_of_iterate hn (Nat.le_succ n)
    rw [Function.iterate_succ_apply']
    apply status_step_of_running (ih hopen)
    rw [← Function.iterate_succ_apply' step, isTerminal_iterate_step_play, hn]

/-! ## Beats -/

section Beats

variable {α : Type} {view : Machine → α} {interruptAt : Option Nat} {limit : Nat}
  {p : Playback.Progress α}

/-- The machines after each of the next steps, as they are shown. -/
def views (view : Machine → α) (m : Machine) (n : Nat) : List α :=
  (List.range n).map fun i => view (step^[i + 1] m)

theorem views_succ (view : Machine → α) (m : Machine) (n : Nat) :
    views view m (n + 1) = view m.step :: views view m.step n := by
  simp [views, List.range_succ_eq_map, Function.comp_def]

theorem views_succ' (view : Machine → α) (m : Machine) (n : Nat) :
    views view m (n + 1) = views view m n ++ [view (step^[n + 1] m)] := by
  simp [views, List.range_succ]

/-- A playback from a machine, if pauses can be made. -/
def beats (view : Machine → α) (interruptAt : Option Nat) (limit : Nat) (m : Machine)
    (p : Playback.Progress α) : (Machine × PlaybackEnd) × Playback.Progress α :=
  (playFrom (Playback.present view) (Playback.pauseNow true interruptAt) limit m).run p

/-- A step that fails ends the playback before it is shown. -/
theorem beats_of_fault {move : String} (hfault : m.fault? = some move) :
    beats view interruptAt (limit + 1) m p = ((m.step, .fault move), p) := by
  simp [beats, playFrom, hfault]
  rfl

/-- A step that halts is shown, and no pause follows. -/
theorem beats_of_halted (hfault : m.fault? = none) (hstep : m.step.status ≠ .running) :
    beats view interruptAt (limit + 1) m p =
      ((m.step, .halted), ⟨view m.step :: p.seen, p.pauses⟩) := by
  simp [beats, playFrom, hfault, hstep, Playback.present]
  rfl

/-- A pause that is interrupted pauses the machine. -/
theorem beats_of_interrupt (hfault : m.fault? = none) (hstep : m.step.status = .running)
    (hnow : interruptAt = some (p.pauses + 1)) :
    beats view interruptAt (limit + 1) m p =
      ((m.step.pause, .interrupted), ⟨view m.step :: p.seen, p.pauses + 1⟩) := by
  simp [beats, playFrom, hfault, hstep, Playback.present, Playback.pauseNow, hnow]
  rfl

/-- After any other pause the playback goes on. -/
theorem beats_succ (hfault : m.fault? = none) (hstep : m.step.status = .running)
    (hnow : interruptAt ≠ some (p.pauses + 1)) :
    beats view interruptAt (limit + 1) m p =
      beats view interruptAt limit m.step ⟨view m.step :: p.seen, p.pauses + 1⟩ := by
  simp [beats, playFrom, hfault, hstep, Playback.present, Playback.pauseNow, hnow]

/-- As long as no step fails or halts and no pause is interrupted, there is a pause after every
step. -/
theorem beats_add {n : Nat} (hfault : ∀ i < n, (step^[i] m).fault? = none)
    (hstep : ∀ i < n, (step^[i + 1] m).status = .running)
    (hnow : ∀ i < n, interruptAt ≠ some (p.pauses + (i + 1))) :
    beats view interruptAt (n + limit) m p =
      beats view interruptAt limit (step^[n] m)
        ⟨(views view m n).reverse ++ p.seen, p.pauses + n⟩ := by
  induction n generalizing m p with
  | zero => simp [views]
  | succ n ih =>
    -- after the first beat all conditions hold of one step less
    have hfirst : m.fault? = none := hfault 0 (by omega)
    rw [Nat.succ_add, beats_succ hfirst (hstep 0 (by omega)) (hnow 0 (by omega)), ih]
    · simp [views_succ, Nat.add_assoc, Nat.add_comm 1 n]
    · intro i hi
      exact hfault (i + 1) (by omega)
    · intro i hi
      exact hstep (i + 1) (by omega)
    · intro i hi
      have hlater := hnow (i + 1) (by omega)
      rwa [show p.pauses + 1 + (i + 1) = p.pauses + (i + 1 + 1) by omega]

end Beats

/-! ## Whole playbacks -/

section Playbacks

variable {α : Type} {view : Machine → α} {interruptAt : Option Nat} {limit : Nat} {interval : Int}

theorem isFinite_beat (h : (Playback.pauseLength? interval).isSome = true) :
    (Playback.beat interval).isFinite = true := by
  unfold Playback.pauseLength? at h
  cases hbeat : Playback.beat interval with
  | finite negative mantissa exponent => rfl
  | infinite negative => simp [hbeat, Binary64.scale, Binary64.nearestInt?] at h
  | nan => simp [hbeat, Binary64.scale, Binary64.nearestInt?] at h

/-- A machine that has halted is not played. -/
theorem playback_of_halted (hm : m.halted = true)
    (hbeat : (Playback.beat interval).isFinite = true) :
    m.playback view interval interruptAt limit = ⟨m, [], 0, .halted⟩ := by
  have hterminal : m.status.isTerminal = true := hm
  simp [playback, playOn, hbeat, hterminal]
  rfl

/-- A beat that is too long is refused before the machine is touched. -/
theorem playback_of_endless (hbeat : (Playback.beat interval).isFinite = false) :
    m.playback view interval interruptAt limit = ⟨m, [], 0, .offBeat .endless⟩ := by
  simp [playback, playOn, hbeat]
  rfl

/-- A pause that is too long ends the playback after the first step, unless that halts. -/
theorem playback_of_endlessPause (hbeat : (Playback.beat interval).isFinite = true)
    (hpause : (Playback.pauseLength? interval).isSome = false) (hm : m.halted = false)
    (hfault : m.fault? = none) (hstep : m.step.halted = false) :
    m.playback view interval interruptAt (limit + 1) =
      ⟨m.play.step, [view m.play.step], 0, .offBeat .endlessPause⟩ := by
  have hterminal : m.status.isTerminal = false := hm
  have hplayed : m.play.fault? = none := (fault?_iterate_step_play m 0).trans hfault
  have hrunning : m.play.step.status = .running := status_iterate_step_play (n := 1) hstep
  simp [playback, playOn, hbeat, hterminal, playFrom, hplayed, hrunning, Playback.present,
    Playback.pauseNow, hpause]
  rfl

/-- Any other machine is played from where it stands. -/
theorem playback_eq (hm : m.halted = false)
    (hpause : (Playback.pauseLength? interval).isSome = true) :
    m.playback view interval interruptAt limit =
      ⟨(beats view interruptAt limit m.play ⟨[], 0⟩).1.1,
        (beats view interruptAt limit m.play ⟨[], 0⟩).2.seen.reverse,
        (beats view interruptAt limit m.play ⟨[], 0⟩).2.pauses,
        (beats view interruptAt limit m.play ⟨[], 0⟩).1.2⟩ := by
  have hterminal : m.status.isTerminal = false := hm
  simp [playback, playOn, isFinite_beat hpause, hterminal, hpause, beats]
  rfl

/-- The beats of a playback before one that ends it. -/
theorem beats_play {n : Nat} (hopen : (step^[n] m).halted = false)
    (hfault : ∀ i < n, (step^[i] m).fault? = none)
    (hnow : ∀ k, 1 ≤ k → interruptAt = some k → n < k) :
    beats view interruptAt (n + limit) m.play ⟨[], 0⟩ =
      beats view interruptAt limit (step^[n] m.play) ⟨(views view m.play n).reverse, n⟩ := by
  rw [beats_add]
  · simp
  · intro i hi
    rw [fault?_iterate_step_play, hfault i hi]
  · intro i hi
    exact status_iterate_step_play (not_terminal_of_iterate hopen hi)
  · intro i hi hnow'
    have := hnow (0 + (i + 1)) (by omega) hnow'
    omega

/-- A playback that is interrupted in its `k`-th pause has made `k` steps. -/
theorem playback_of_interrupt (hpause : (Playback.pauseLength? interval).isSome = true) {k : Nat}
    (hk : 1 ≤ k) (hnow : interruptAt = some k) (hopen : (step^[k] m).halted = false)
    (hfault : ∀ i < k, (step^[i] m).fault? = none) (hlimit : k ≤ limit) :
    m.playback view interval interruptAt limit =
      ⟨(step^[k] m.play).pause, views view m.play k, k, .interrupted⟩ := by
  -- the last of the `k` beats is the one whose pause is interrupted
  obtain ⟨n, rfl⟩ : ∃ n, k = n + 1 := ⟨k - 1, by omega⟩
  obtain ⟨rest, rfl⟩ : ∃ rest, limit = n + (rest + 1) := ⟨limit - (n + 1), by omega⟩
  have hm : m.halted = false := not_terminal_of_iterate hopen (Nat.zero_le _)
  have hbefore : (step^[n] m).halted = false := not_terminal_of_iterate hopen (Nat.le_succ n)
  have hstep : (step^[n] m.play).step.status = .running := by
    rw [← Function.iterate_succ_apply' step]
    exact status_iterate_step_play hopen
  have hlast : (step^[n] m.play).fault? = none := by
    rw [fault?_iterate_step_play, hfault n (by omega)]
  rw [playback_eq hm hpause, beats_play hbefore (fun i hi => hfault i (by omega)) ?_,
    beats_of_interrupt hlast hstep hnow]
  · simp [views_succ', Function.iterate_succ_apply']
  · intro k _ hk'
    rw [hnow] at hk'
    have := Option.some.inj hk'
    omega

/-- A playback that is not interrupted before the machine halts makes a run, with a pause between
any two of its steps. -/
theorem playback_of_haltsAt (hpause : (Playback.pauseLength? interval).isSome = true) {h : Nat}
    (hh : m.HaltsAt h) (hm : m.halted = false)
    (hnow : ∀ k, 1 ≤ k → interruptAt = some k → h ≤ k) (hlimit : h ≤ limit) :
    m.playback view interval interruptAt limit =
      ⟨step^[h] m.play, views view m.play h, h - 1, .halted⟩ := by
  -- the last of the `h` beats is the one without a pause
  obtain ⟨n, rfl⟩ : ∃ n, h = n + 1 := by
    cases h with
    | zero => exact absurd (hm.symm.trans hh.halted) Bool.false_ne_true
    | succ n => exact ⟨n, rfl⟩
  obtain ⟨rest, rfl⟩ : ∃ rest, limit = n + (rest + 1) := ⟨limit - (n + 1), by omega⟩
  have hstep : (step^[n] m.play).step.status ≠ .running := by
    intro hrunning
    have hterminal := hh.halted
    rw [halted, ← isTerminal_iterate_step_play, Function.iterate_succ_apply', hrunning] at hterminal
    contradiction
  have hlast : (step^[n] m.play).fault? = none := by
    rw [fault?_iterate_step_play, (hh.iterate (Nat.le_succ n)).fault?_eq_none]
  have hfault : ∀ i < n, (step^[i] m).fault? = none :=
    fun i hi => (hh.iterate (by omega : i ≤ n + 1)).fault?_eq_none
  rw [playback_eq hm hpause, beats_play (hh.running n (by omega)) hfault hnow,
    beats_of_halted hlast hstep]
  simp [views_succ', Function.iterate_succ_apply']

/-- A playback that comes to a step that fails ends with it. -/
theorem playback_of_fault (hpause : (Playback.pauseLength? interval).isSome = true) {n : Nat}
    {move : String} (hlast : (step^[n] m).fault? = some move)
    (hfault : ∀ i < n, (step^[i] m).fault? = none)
    (hnow : ∀ k, 1 ≤ k → interruptAt = some k → n < k) (hlimit : n < limit) :
    m.playback view interval interruptAt limit =
      ⟨step^[n + 1] m.play, views view m.play n, n, .fault move⟩ := by
  obtain ⟨rest, rfl⟩ : ∃ rest, limit = n + (rest + 1) := ⟨limit - (n + 1), by omega⟩
  have hopen : (step^[n] m).halted = false := (fault?_eq_some_iff.1 hlast).1
  have hm : m.halted = false := not_terminal_of_iterate hopen (Nat.zero_le _)
  have hplayed : (step^[n] m.play).fault? = some move := by
    rw [fault?_iterate_step_play, hlast]
  rw [playback_eq hm hpause, beats_play hopen hfault hnow, beats_of_fault hplayed]
  simp [Function.iterate_succ_apply']

/-! ## Playbacks and runs -/

/-- A machine that was interrupted pauses, and stands where as many steps lead. -/
theorem standing_pause_iterate_play {k : Nat} (hopen : (step^[k] m).halted = false) :
    (step^[k] m.play).pause.standing = { (step^[k] m).standing with status := .paused } := by
  have hpaused : (step^[k] m.play).pause.status = .paused := by
    simp [pause, status_iterate_step_play hopen]
  have hrest : (step^[k] m.play).pause.standing.atRest = (step^[k] m).standing.atRest := by
    rw [← standing_atRest, ← standing_atRest, atRest_pause, atRest_iterate_step_play]
  -- a machine that pauses is at rest as it is
  have hkept : (step^[k] m.play).pause.standing.atRest = (step^[k] m.play).pause.standing := by
    rw [Standing.atRest_of_not_terminal (congrArg Status.isTerminal hpaused)]
    exact Standing.ext rfl rfl rfl hpaused.symm rfl
  rw [← hkept, hrest]
  exact Standing.atRest_of_not_terminal hopen

/-- A machine that was played to its end stands where a run leads. -/
theorem standing_iterate_play_of_haltsAt {h : Nat} (hh : m.HaltsAt h) :
    (step^[h] m.play).standing = (m.run h).machine.standing := by
  have hterminal : (step^[h] m.play).status.isTerminal = true := by
    rw [isTerminal_iterate_step_play]
    exact hh.halted
  have hrun : (m.run h).machine = step^[h] m := machine_runFrom (hh.fault_runFrom 0 h)
  rw [hrun]
  exact standing_congr (atRest_iterate_step_play m h) hterminal

/-- How a playback went: the steps that were made and shown, the number of pauses, how it ended, and
where the machine stands then. -/
structure Went (p : Playback α) (view : Machine → α) (m : Machine) (steps pauses : Nat)
    (ending : PlaybackEnd) (standing : Standing) : Prop where
  shown : p.shown = views view m.play steps
  pauses : p.pauses = pauses
  ending : p.ending = ending
  standing : p.machine.standing = standing

/-- The playback of a machine is the run of the machine, cut where a pause is interrupted. -/
structure CutsRun (view : Machine → α) (m : Machine) (interval : Int) (interruptAt : Option Nat) :
    Prop where
  /-- A machine that has halted is left as it is. -/
  rests : m.halted = true → ∀ limit,
    m.playback view interval interruptAt limit = ⟨m, [], 0, .halted⟩
  /-- Interrupted in a pause before the machine halts, a playback has made as many steps as pauses,
  and the machine pauses. -/
  interrupted : ∀ k, 1 ≤ k → interruptAt = some k → (∀ h, m.HaltsAt h → k < h) →
    (∀ i < k, (step^[i] m).fault? = none) → ∀ limit, k ≤ limit →
      Went (m.playback view interval interruptAt limit) view m k k .interrupted
        { (step^[k] m).standing with status := .paused }
  /-- Not interrupted before the machine halts, it comes to where a run comes to, with a pause
  between any two steps. -/
  ended : ∀ h, m.HaltsAt h → m.halted = false →
    (∀ k, 1 ≤ k → interruptAt = some k → h ≤ k) → ∀ limit, h ≤ limit →
      Went (m.playback view interval interruptAt limit) view m h (h - 1) .halted
        (m.run h).machine.standing ∧ (m.run h).machine.halted = true
  /-- The first step that fails ends it, unless it was interrupted before. -/
  failed : ∀ n move, (step^[n] m).fault? = some move → (∀ i < n, (step^[i] m).fault? = none) →
    (∀ k, 1 ≤ k → interruptAt = some k → n < k) → ∀ limit, n < limit →
      m.playback view interval interruptAt limit =
        ⟨step^[n + 1] m.play, views view m.play n, n, .fault move⟩
  /-- Played again after an interrupt, the machine comes to where it would have come without. -/
  resumed : ∀ k h, 1 ≤ k → interruptAt = some k → m.HaltsAt h → k < h →
    ∀ limit further whole, k ≤ limit → h - k ≤ further → h ≤ whole →
      ((m.playback view interval interruptAt limit).machine.playback view interval none
        further).ending = .halted ∧
      ((m.playback view interval interruptAt limit).machine.playback view interval none
        further).machine.standing = (m.playback view interval none whole).machine.standing

end Playbacks

/-- A machine that makes three steps: one for each letter that it writes, and one that accepts. -/
def letteredMachine : Machine :=
  ofTable (.ofList
    [⟨"q0", "_", "a", "R", "q1", 0, "_/a,R"⟩, ⟨"q1", "_", "b", "R", "q2", 1, "_/b,R"⟩,
      ⟨"q2", "_", "_", "S", "ha", 2, "_/_,S"⟩]) none

theorem haltsAt_letteredMachine : letteredMachine.HaltsAt 3 :=
  ⟨by decide +kernel, by decide +kernel⟩

/-- A machine that accepts with its first step. -/
def acceptingMachine : Machine := ofTable (.ofList [⟨"q0", "_", "_", "S", "ha", 0, "_/_,S"⟩]) none

/-- A machine whose first step fails. -/
def faultyMachine : Machine := ofTable (.ofList [⟨"q0", "_", "_", "X", "q1", 0, "_/_,X"⟩]) none

end Machine

end TapeMachine
