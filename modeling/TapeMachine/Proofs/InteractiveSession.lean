import TapeMachine.Proofs.SessionQuestions
import TapeMachine.Proofs.Turns

/-!
# The interactive simulator between two turns

The menu has ten choices, which work on one machine and one configuration. Loads may fail, edits may
be refused and a playback may be interrupted; what holds of the simulator before a turn holds after
it all the same. Only the name of a program file is taken over from an answer without a check, so it
has to be a text.

## Main results

- `IsInStep.turn`: what a turn keeps
- `menu_in_step`: what holds whenever the menu is shown
- `exists_menu_of_run`: a session ends in a turn that began with the menu
-/

namespace TapeMachine

open Session

namespace Command

/-- The history is as long as the configuration says. -/
theorem exists_capacity {config : Config} (hvalid : config.Valid) {c : Option Nat}
    (h : capacity? (some (config.int .maxHistory)) = .ok c) :
    ∃ n : Nat, c = some n ∧ config.value? .maxHistory = some (.int n) := by
  obtain ⟨n, hn⟩ := @Config.Valid.exists_int _ .maxHistory hvalid rfl
  have hint : config.int .maxHistory = n := by rw [Config.int, hn]
  rw [hint] at h
  unfold capacity? at h
  dsimp only at h
  split at h
  · contradiction
  split at h
  · contradiction
  · rename_i hnonneg
    refine ⟨n.toNat, (Except.ok.inj h).symm, ?_⟩
    rw [Int.toNat_of_nonneg (Int.not_lt.1 hnonneg), hn]

theorem exists_source_of_compileProgram {m m' : Machine} {text : Session String} {w w' : World}
    (h : runIn (compileProgram m text) w = (.ok (.ok m'), w')) :
    ∃ source, m.compile source = .ok m' := by
  obtain ⟨source, w₁, -, h⟩ := runIn_bind_eq_ok (runIn_attempt_eq_ok h)
  exact ⟨source, (runIn_ofResult_eq_ok h).1⟩

namespace Simulator

/-- What holds of a simulator between two turns. -/
structure IsInStep (s : Simulator) : Prop where
  valid : s.config.Valid
  sound : s.machine.IsSound
  capacity : ∃ n : Nat, s.machine.history.capacity = some n ∧
    s.config.value? .maxHistory = some (.int n)

variable {s s' : Simulator} {w w' : World}

theorem IsInStep.withMachine (h : s.IsInStep) {m : Machine} (hsound : m.IsSound)
    (hcapacity : m.history.capacity = s.machine.history.capacity) :
    IsInStep { s with machine := m } := by
  obtain ⟨n, hn, hvalue⟩ := h.capacity
  exact ⟨h.valid, hsound, n, hcapacity.trans hn, hvalue⟩

/-- Whatever a choice makes of the simulator, it keeps in step. -/
theorem IsInStep.of_changes (h : s.IsInStep) (hchanges : s.Changes s') : s'.IsInStep := by
  cases hchanges with
  | worked hm => exact h.withMachine (hm.isSound h.sound) hm.capacity_eq
  | listed j inputs => exact ⟨h.valid, h.sound, h.capacity⟩
  | edited hvalid hprogram hcapacity =>
    obtain ⟨n, rfl, hn⟩ := exists_capacity hvalid hcapacity
    exact ⟨hvalid, h.sound.resize _, n, History.capacity_bounded _ _, hn⟩

/-- A program is loaded under the name that was answered, or nothing changes. -/
theorem runIn_loadMachine_eq_ok (h : runIn s.loadMachine w = (.ok s', w')) :
    ∃ q answer, Asks w w' [(q, answer)] ∧ q.kind = .text ∧
      q.default = (s.config.value? .machineFile).getD (.str "") ∧
      (s' = s ∨ ∃ m source value, s.machine.compile source = .ok m ∧
        value = answerOr q.default answer ∧
        s' = { s with machine := m, config := s.config.set .machineFile value }) := by
  unfold loadMachine at h
  obtain ⟨value, w₁, hask, h⟩ := runIn_bind_eq_ok h
  obtain ⟨answer, hvalue, hasked⟩ := asks_of_ask hask
  obtain ⟨outcome, w₂, hcompile, h⟩ := runIn_bind_eq_ok h
  have hcompiled := Quiet.asks (quiet.compileProgram _ (quiet.programNamed value)) hcompile
  -- what is said behind the answer asks nothing
  cases outcome with
  | error e =>
    obtain ⟨_, w₃, hfirst, h⟩ := runIn_bind_eq_ok h
    obtain ⟨_, w₄, hsecond, h⟩ := runIn_bind_eq_ok h
    obtain ⟨rfl, rfl⟩ := runIn_pure_eq_ok h
    have hsaid := (Quiet.asks (quiet.sayIn _ _) hfirst).trans (Quiet.asks (quiet.sayIn _ _) hsecond)
    exact ⟨_, answer, (hasked.trans hcompiled).trans hsaid, rfl, rfl, .inl rfl⟩
  | ok m =>
    obtain ⟨_, w₃, hsay, h⟩ := runIn_bind_eq_ok h
    obtain ⟨rfl, rfl⟩ := runIn_pure_eq_ok h
    obtain ⟨source, hsource⟩ := exists_source_of_compileProgram hcompile
    exact ⟨_, answer, (hasked.trans hcompiled).trans (Quiet.asks (quiet.sayIn _ _) hsay), rfl, rfl,
      .inr ⟨m, source, value, hsource, hvalue, rfl⟩⟩

/-- What a question for a program file takes is a text. -/
theorem exists_text_of_fits (h : s.config.Valid) {q : Question} {answer : Json}
    (hkind : q.kind = .text) (hdefault : q.default = (s.config.value? .machineFile).getD (.str ""))
    (hfits : q.fits answer = true) : ∃ text, answerOr q.default answer = .str text := by
  cases answer with
  | null =>
    obtain ⟨text, htext⟩ := @Config.Valid.exists_text _ .machineFile h rfl
    exact ⟨text, by simp [hdefault, htext, answerOr]⟩
  | str text => exact ⟨text, rfl⟩
  | _ => simp [Question.fits, hkind] at hfits

theorem IsInStep.loadMachine (h : s.IsInStep) (hrun : runIn s.loadMachine w = (.ok s', w'))
    (hfits : ∀ x ∈ exchanges w w', x.1.fits x.2 = true) : s'.IsInStep := by
  obtain ⟨q, answer, hasks, hkind, hdefault, hend⟩ := runIn_loadMachine_eq_ok hrun
  obtain rfl | ⟨m, source, value, hcompile, hvalue, rfl⟩ := hend
  · exact h
  · rw [hasks.exchanges_eq] at hfits
    obtain ⟨text, htext⟩ :=
      exists_text_of_fits h.valid hkind hdefault (hfits _ List.mem_cons_self)
    obtain ⟨program, hprogram, rfl⟩ := Machine.compile_eq_ok hcompile
    obtain ⟨n, hn, hhistory⟩ := h.capacity
    rw [hvalue, htext]
    refine ⟨h.valid.set_text rfl text, Machine.isKept_isSound.install hprogram h.sound, n, hn, ?_⟩
    -- the name of the program is another setting than the length of the history
    rw [Config.value?_set_of_ne s.config _ (by decide)]
    exact hhistory

/-! ## Turns -/

theorem IsInStep.carryOut (h : s.IsInStep) {choice : Json}
    (hrun : runIn (s.carryOut choice) w = (.ok (some s'), w'))
    (hfits : ∀ x ∈ exchanges w w', x.1.fits x.2 = true) : s'.IsInStep := by
  rcases changes_of_carryOut hrun with ⟨-, hload⟩ | ⟨-, hchanges⟩
  · exact h.loadMachine hload hfits
  · exact h.of_changes hchanges

/-- A turn whose questions get answers of their kinds keeps a simulator in step. -/
theorem IsInStep.turn (h : s.IsInStep) (hrun : runIn s.turn w = (.ok (some s'), w'))
    (hfits : ∀ x ∈ exchanges w w', x.1.fits x.2 = true) : s'.IsInStep := by
  obtain ⟨choice, w₁, hchoose, hcarry⟩ := runIn_bind_eq_ok hrun
  have hasks := (s.tallies_choose.asks hchoose).trans ((s.tallies_carryOut choice).asks hcarry)
  rw [hasks.exchanges_eq] at hfits
  exact h.carryOut hcarry fun x hx => hfits x (List.mem_append_right _ hx)

/-! ## Sessions -/

variable {config : Config} {path : String}

theorem isInStep_of_start (hconfig : config.Valid)
    (h : runIn (start config path) w = (.ok s, w')) : s.IsInStep := by
  unfold start at h
  obtain ⟨j, w₁, -, h⟩ := runIn_bind_eq_ok h
  obtain ⟨m, w₂, hmachine, h⟩ := runIn_bind_eq_ok h
  obtain ⟨outcome, w₃, hcompile, h⟩ := runIn_bind_eq_ok h
  obtain ⟨c, w₄, hcapacity, hmachine⟩ := runIn_bind_eq_ok hmachine
  obtain ⟨rfl, -⟩ := runIn_pure_eq_ok hmachine
  obtain ⟨n, rfl, hn⟩ := exists_capacity hconfig (runIn_ofResult_eq_ok hcapacity).1
  -- without a program the machine is fresh, and as long as the configuration says
  have hfresh : ((Machine.ofTable .empty (some n)).load
      (config.text .defaultInput)).IsSound := Machine.isSound_load rfl _
  cases outcome with
  | ok m =>
    obtain ⟨source, hsource⟩ := exists_source_of_compileProgram hcompile
    obtain ⟨program, hprogram, rfl⟩ := Machine.compile_eq_ok hsource
    obtain ⟨rfl, -⟩ := runIn_pure_eq_ok h
    exact ⟨hconfig, Machine.isKept_isSound.install hprogram hfresh, n, rfl, hn⟩
  | error e =>
    obtain ⟨_, w₅, -, h⟩ := runIn_bind_eq_ok h
    obtain ⟨rfl, -⟩ := runIn_pure_eq_ok h
    exact ⟨hconfig, hfresh, n, rfl, hn⟩

/-- The simulator that shows the menu after a few turns. In each of them a pause may be interrupted,
which ends a playback. -/
def afterTurns : List (Option Nat) → Simulator → Session Simulator
  | [], s => pure s
  | interruptAt :: later, s => do
    modify fun w => { w with interruptAt := interruptAt }
    match ← s.turn with
    | some s => afterTurns later s
    | none => throw (.noAnswer choiceQuestion)

/-- The simulator that shows the menu for the first time, or after a few turns. -/
def menuAfter (config : Config) (path : String) (interrupts : List (Option Nat)) :
    Session Simulator := do
  afterTurns interrupts (← start config path)

theorem runIn_afterTurns_cons_eq_ok {interruptAt : Option Nat} {later : List (Option Nat)}
    (h : runIn (afterTurns (interruptAt :: later) s) w = (.ok s', w')) :
    ∃ s₁ w₁, runIn s.turn { w with interruptAt := interruptAt } = (.ok (some s₁), w₁) ∧
      runIn (afterTurns later s₁) w₁ = (.ok s', w') := by
  obtain ⟨_, w₁, hmodify, h⟩ := runIn_bind_eq_ok h
  obtain ⟨next, w₂, hturn, h⟩ := runIn_bind_eq_ok h
  obtain rfl := (Prod.mk.inj hmodify).2
  cases next with
  | none => exact absurd h runIn_throw_ne_ok
  | some s₁ => exact ⟨s₁, w₂, hturn, h⟩

theorem tallies_afterTurns (interrupts : List (Option Nat)) (s : Simulator) :
    Tallies (afterTurns interrupts s) := by
  induction interrupts generalizing s with
  | nil => exact tallying.pure s
  | cons interruptAt later ih =>
    have hmodify : Quiet (modify fun w : World => { w with interruptAt := interruptAt }) :=
      quiet_modify (fun _ => rfl) fun _ => rfl
    refine tallying.bind hmodify.tallies fun _ => tallying.bind s.tallies_turn fun next => ?_
    cases next with
    | some s₁ => exact ih s₁
    | none => exact tallying.throw _

theorem IsInStep.afterTurns {interrupts : List (Option Nat)} (h : s.IsInStep)
    (hrun : runIn (afterTurns interrupts s) w = (.ok s', w'))
    (hfits : ∀ x ∈ exchanges w w', x.1.fits x.2 = true) : s'.IsInStep := by
  induction interrupts generalizing s w with
  | nil =>
    obtain ⟨rfl, -⟩ := runIn_pure_eq_ok hrun
    exact h
  | cons interruptAt later ih =>
    obtain ⟨s₁, w₁, hturn, hlater⟩ := runIn_afterTurns_cons_eq_ok hrun
    have hasks := (s.tallies_turn.asks hturn).trans ((tallies_afterTurns later s₁).asks hlater)
    have hexchanges := hasks.exchanges_eq
    rw [show exchanges w w' = _ from hexchanges] at hfits
    refine ih (h.turn hturn fun x hx => ?_) hlater fun x hx => ?_
    · exact hfits x (List.mem_append_left _ hx)
    · exact hfits x (List.mem_append_right _ hx)

/-- Whenever the menu is shown, the configuration is valid, the history may hold as much as it says,
and the machine is consistent: the status tells the state and the error, and the graph is that of
the table. All that is asked for is that every question so far has got an answer of its kind. -/
theorem menu_in_step {interrupts : List (Option Nat)} (hconfig : config.Valid)
    (h : runIn (menuAfter config path interrupts) w = (.ok s, w'))
    (hfits : ∀ x ∈ exchanges w w', x.1.fits x.2 = true) :
    s.config.Valid ∧
    (∃ n : Nat, s.machine.history.capacity = some n ∧
      s.config.value? .maxHistory = some (.int n)) ∧
    s.machine.IsConsistent := by
  obtain ⟨s₀, w₀, hstart, hturns⟩ := runIn_bind_eq_ok h
  have hasks := (Quiet.asks (quiet.start quiet_write config path) hstart).trans
    ((tallies_afterTurns interrupts s₀).asks hturns)
  rw [hasks.exchanges_eq] at hfits
  have hstep := (isInStep_of_start hconfig hstart).afterTurns hturns hfits
  exact ⟨hstep.valid, hstep.capacity, hstep.sound.isConsistent⟩

/-- A world with a small program, and answers for a step and for another bound on the history. -/
def sampleWorld : World where
  files := ⟨[(["m.tm"], .file "q0 a/b,R ha".toUTF8)]⟩
  answers := [.str "1", .str "9", .int 2, .null, .null, .null]
  clock := ⟨⟨"2024-01-02", "2024-01-02T03:04:05+00:00"⟩, []⟩
  patience := 5

/-- After a step and an edit the history holds two snapshots at most. -/
theorem menu_in_step_edited :
    ∃ s w', runIn (menuAfter (Config.defaults.set .machineFile (.str "m.tm")) "c.json" [none, none])
        sampleWorld = (.ok s, w') ∧
      s.machine.stepCount = 1 ∧ s.machine.history.capacity = some 2 ∧
      s.config.Valid ∧
      (∃ n : Nat, s.machine.history.capacity = some n ∧
        s.config.value? .maxHistory = some (.int n)) ∧
      s.machine.IsConsistent := by
  obtain ⟨s, w', hrun, hends⟩ := exists_of_endsWith (w := sampleWorld)
    (s := menuAfter (Config.defaults.set .machineFile (.str "m.tm")) "c.json" [none, none])
    (P := fun s w' => decide (s.machine.stepCount = 1) &&
      decide (s.machine.history.capacity = some 2) &&
      (exchanges sampleWorld w').all fun x => x.1.fits x.2) (by decide +kernel)
  simp only [Bool.and_eq_true, decide_eq_true_eq, List.all_eq_true] at hends
  obtain ⟨⟨hsteps, hcapacity⟩, hfits⟩ := hends
  exact ⟨s, w', hrun, hsteps, hcapacity, menu_in_step (by decide +kernel) hrun hfits⟩

/-! ## Runs and their turns -/

/-- The menu ends with a question, and asks nothing else. -/
theorem asks_of_choose {choice : Json} (h : runIn s.choose w = (.ok choice, w')) :
    ∃ answer, choice = answerOr choiceQuestion.default answer ∧
      Asks w w' [(choiceQuestion, answer)] := by
  obtain ⟨_, w₁, hshow, h⟩ := runIn_bind_eq_ok h
  obtain ⟨_, w₂, hmenu, hask⟩ := runIn_bind_eq_ok h
  obtain ⟨answer, hchoice, hasked⟩ := asks_of_ask hask
  have hshown := (Quiet.asks (quiet.showMachine _ _) hshow).trans
    (Quiet.asks (quiet.forIn (fun _ => quiet.say _) _) hmenu)
  exact ⟨answer, hchoice, hshown.trans hasked⟩

/-- A turn takes an answer. -/
theorem length_answers_of_turn {next : Option Simulator}
    (h : runIn s.turn w = (.ok next, w')) : w'.answers.length < w.answers.length := by
  obtain ⟨choice, w₁, hchoose, hcarry⟩ := runIn_bind_eq_ok h
  obtain ⟨answer, -, hasked⟩ := asks_of_choose hchoose
  rw [(hasked.trans ((s.tallies_carryOut choice).asks hcarry)).answers, List.length_append]
  simp

/-- There are turns enough: they end as the last of them does. -/
theorem exists_menu_of_turns {fuel : Nat} {r : Except Fault Unit}
    (hfuel : w.answers.length < fuel) (h : runIn (turns fuel s) w = (r, w')) :
    ∃ interrupts s₁ w₁, runIn (afterTurns interrupts s) w = (.ok s₁, w₁) ∧
      runIn s₁.turn w₁ = (r.map fun _ => none, w') := by
  induction fuel generalizing s w with
  | zero => exact absurd hfuel (Nat.not_lt_zero _)
  | succ fuel ih =>
    rw [turns, runIn_bind] at h
    split at h
    · rename_i next w₁ hturn
      cases next with
      | none =>
        obtain ⟨rfl, rfl⟩ := Prod.mk.inj h
        exact ⟨[], s, w, rfl, hturn⟩
      | some s₁ =>
        -- the turn took at least the answer that chose it, so the fuel lasts
        have hless := length_answers_of_turn hturn
        obtain ⟨interrupts, s₂, w₂, hafter, hlast⟩ := ih (by omega) h
        refine ⟨w.interruptAt :: interrupts, s₂, w₂, ?_, hlast⟩
        refine (runIn_bind_of_ok (runIn_modify _ w)).trans ?_
        rw [runIn_bind_of_ok hturn]
        exact hafter
    · rename_i e w₁ hturn
      obtain ⟨rfl, rfl⟩ := Prod.mk.inj h
      exact ⟨[], s, w, rfl, hturn⟩

/-- A session that shows the menu ends as the turn does that began with the last menu. -/
theorem exists_menu_of_run {r : Except Fault Unit} (h : runIn (run config path) w = (r, w')) :
    (∃ e, r = .error e ∧ runIn (start config path) w = (.error e, w')) ∨
    ∃ interrupts s w₁, runIn (menuAfter config path interrupts) w = (.ok s, w₁) ∧
      runIn s.turn w₁ = (r.map fun _ => none, w') := by
  rw [run, runIn_bind] at h
  split at h
  · rename_i s w₁ hstart
    rw [runIn_get_bind] at h
    obtain ⟨interrupts, s₁, w₂, hafter, hlast⟩ :=
      exists_menu_of_turns (Nat.lt_succ_self _) h
    refine .inr ⟨interrupts, s₁, w₂, ?_, hlast⟩
    rw [menuAfter, runIn_bind_of_ok hstart]
    exact hafter
  · rename_i e w₁ hstart
    obtain ⟨rfl, rfl⟩ := Prod.mk.inj h
    exact .inl ⟨e, rfl, hstart⟩

end Simulator

end Command

end TapeMachine
