import TapeMachine.Proofs.ConfigChecks
import TapeMachine.Proofs.ReachableState
import TapeMachine.Proofs.SessionRuns
import TapeMachine.Command.Interactive

/-!
# What a turn makes of the simulator

A choice of the menu works with the machine, runs a suite, edits the configuration or loads a
program. What each of them can make of the simulator is found out here once, for whatever is to be
kept from turn to turn.

## Main results

- `Machine.Becomes`: what becomes of a machine without another program
- `Command.Simulator.changes_of_carryOut`: what a choice makes of the simulator, loading aside
-/

namespace TapeMachine

open Session

namespace Machine

/-! ## Working with a machine -/

variable {m m' : Machine}

/-- What becomes of a machine that is worked with, but gets no other program or history. -/
inductive Becomes (m : Machine) : Machine → Prop
  | refl : Becomes m m
  | step {m' : Machine} : Becomes m m' → Becomes m m'.step
  | stepBack {m' : Machine} : Becomes m m' → Becomes m m'.stepBack
  | play {m' : Machine} : Becomes m m' → Becomes m m'.play
  | pause {m' : Machine} : Becomes m m' → Becomes m m'.pause
  | load {m' : Machine} (input : Text.Loose) : Becomes m m' → Becomes m (m'.load input)
  | place {m' : Machine} (position : Nat) (asTruth : Bool) : Becomes m m' →
      Becomes m (restart { m' with head := position, headAsTruth := asTruth })

namespace Becomes

theorem table_eq (h : m.Becomes m') : m'.table = m.table := by
  induction h with
  | refl => rfl
  | step _ ih => rw [table_step, ih]
  | stepBack _ ih => rw [table_stepBack, ih]
  | play _ ih => rw [table_play, ih]
  | pause _ ih => rw [table_pause, ih]
  | load input _ ih => exact ih
  | place position asTruth _ ih => exact ih

theorem capacity_eq (h : m.Becomes m') : m'.history.capacity = m.history.capacity := by
  induction h with
  | refl => rfl
  | step _ ih => rw [capacity_step, ih]
  | stepBack _ ih => rw [capacity_stepBack, ih]
  | play _ ih => rw [capacity_play, ih]
  | pause _ ih => rw [capacity_pause, ih]
  | load input _ ih => exact ih
  | place position asTruth _ ih => exact ih

theorem isSound (h : m.Becomes m') (hm : m.IsSound) : m'.IsSound := by
  induction h with
  | refl => exact hm
  | step _ ih => exact ih.step
  | stepBack _ ih => exact ih.stepBack
  | play _ ih => exact ih.play
  | pause _ ih => exact ih.pause
  | load input _ ih => exact isSound_load ih.graph_eq input
  | place position asTruth _ ih => exact isSound_restart ih.graph_eq ih.clean

end Becomes

/-! ## Playbacks -/

section Playing

variable {present : Machine → Session Unit} {pauseNow : Session PauseEnd} {limit : Nat}
  {ending : PlaybackEnd} {w w' : World} {m₀ : Machine}

/-- Whenever and however a playback ends, it made steps and paused, and did nothing else. -/
theorem becomes_of_playFrom (hm : m₀.Becomes m)
    (h : runIn (playFrom present pauseNow limit m) w = (.ok (m', ending), w')) :
    m₀.Becomes m' := by
  -- on the limit, for every machine that the playback may have come to
  induction limit generalizing m w with
  | zero =>
    obtain ⟨⟨⟩, -⟩ := runIn_pure_eq_ok h
    exact hm
  | succ limit ih =>
    rw [playFrom] at h
    have hnext := hm.step
    split at h
    · obtain ⟨⟨⟩, -⟩ := runIn_pure_eq_ok h
      exact hnext
    · obtain ⟨-, w₁, -, h⟩ := runIn_bind_eq_ok h
      split at h
      · obtain ⟨pauseEnd, w₂, -, h⟩ := runIn_bind_eq_ok h
        -- the pause is over, was interrupted, or could not begin
        cases pauseEnd
        · exact ih hnext h
        · obtain ⟨⟨⟩, -⟩ := runIn_pure_eq_ok h
          exact hnext.pause
        · obtain ⟨⟨⟩, -⟩ := runIn_pure_eq_ok h
          exact hnext
      · obtain ⟨⟨⟩, -⟩ := runIn_pure_eq_ok h
        exact hnext

theorem becomes_of_playOn {interval : Int}
    (h : runIn (playOn present pauseNow interval limit m) w = (.ok (m', ending), w')) :
    m.Becomes m' := by
  unfold playOn at h
  split at h
  · obtain ⟨⟨⟩, -⟩ := runIn_pure_eq_ok h
    exact .refl
  split at h
  · obtain ⟨⟨⟩, -⟩ := runIn_pure_eq_ok h
    exact .refl
  · exact becomes_of_playFrom (.play .refl) h

end Playing

end Machine

namespace Command

/-! ## Edits -/

/-- Only a valid configuration is saved. -/
theorem valid_of_saveConfig {config : Config} {path : String} {w w' : World}
    (h : runIn (saveConfig config path) w = (.ok (), w')) : config.Valid := by
  unfold saveConfig at h
  rw [runIn_get_bind] at h
  dsimp only at h
  obtain ⟨-, w₁, -, h⟩ := runIn_bind_eq_ok h
  unfold Config.Valid
  cases hfault : config.fault? with
  | none => rfl
  | some e =>
    have hsave : (config.save w.files path).2 = some (.config e) := by
      rw [Config.save, hfault]
    rw [hsave] at h
    exact absurd h runIn_throw_ne_ok

/-- The answers are those to the settings that are asked for. -/
theorem exists_key_of_askSettings {config : Config} {settings : List (Config.Key × String)}
    {answers : Config} {w w' : World}
    (h : runIn (settings.mapM fun (key, prompt) => do
      pure (Config.Name.text key.name, ← askSetting config key prompt)) w = (.ok answers, w')) :
    ∀ answer ∈ answers, ∃ setting ∈ settings, answer.1 = .text setting.1.name := by
  -- on the settings: the first of them gets the first answer
  induction settings generalizing answers w w' with
  | nil =>
    obtain ⟨rfl, -⟩ := runIn_pure_eq_ok h
    nofun
  | cons setting settings ih =>
    rw [List.mapM_cons] at h
    obtain ⟨first, w₁, hfirst, h⟩ := runIn_bind_eq_ok h
    obtain ⟨rest, w₂, hrest, h⟩ := runIn_bind_eq_ok h
    obtain ⟨rfl, -⟩ := runIn_pure_eq_ok h
    obtain ⟨value, w₃, -, hpure⟩ := runIn_bind_eq_ok hfirst
    obtain ⟨rfl, -⟩ := runIn_pure_eq_ok hpure
    intro answer hanswer
    rcases List.mem_cons.1 hanswer with rfl | hmem
    · exact ⟨setting, List.mem_cons_self, rfl⟩
    · obtain ⟨other, hother, hname⟩ := ih hrest answer hmem
      exact ⟨other, List.mem_cons_of_mem _ hother, hname⟩

/-- Answers to other settings leave a setting as it is. -/
theorem value?_putAll {config answers : Config} {key : Config.Key}
    (h : ∀ answer ∈ answers, ∃ other, other ≠ key ∧ answer.1 = .text other.name) :
    (config.putAll answers).value? key = config.value? key := by
  rw [Config.putAll_eq_foldl]
  -- on the answers, whatever the earlier ones have made of the configuration
  induction answers generalizing config with
  | nil => rfl
  | cons answer answers ih =>
    obtain ⟨hanswer, hanswers⟩ := List.forall_mem_cons.1 h
    obtain ⟨other, hne, hname⟩ := hanswer
    rw [List.foldl_cons, ih hanswers]
    show (config.put answer.1 answer.2).value? key = _
    rw [hname]
    exact Config.value?_set_of_ne config answer.2 hne

namespace Simulator

/-! ## Choices -/

variable {s s' : Simulator} {w w' : World}

/-- What a choice can make of the simulator, if it loads no program. -/
inductive Changes (s : Simulator) : Simulator → Prop
  /-- The machine was worked with. -/
  | worked {m : Machine} (h : s.machine.Becomes m) : Changes s { s with machine := m }
  /-- A suite was run. -/
  | listed (j : Journal) (inputs : List String) :
      Changes s { s with journal := j, inputs := inputs }
  /-- The configuration was edited, and the history has got another bound. -/
  | edited {config : Config} {c : Option Nat} (hvalid : config.Valid)
      (hprogram : config.value? .machineFile = s.config.value? .machineFile)
      (hcapacity : capacity? (some (config.int .maxHistory)) = .ok c) :
      Changes s { s with
        config := config, machine := { s.machine with history := s.machine.history.resize c } }

theorem changes_of_play (h : runIn s.play w = (.ok s', w')) : s.Changes s' := by
  unfold Simulator.play at h
  dsimp only at h
  rw [runIn_get_bind] at h
  obtain ⟨⟨m, ending⟩, w₁, hplay, h⟩ := runIn_bind_eq_ok h
  have hs' : s' = { s with machine := m } := by
    split at h
    · exact (runIn_pure_eq_ok h).1.symm
    · exact (runIn_pure_eq_ok h).1.symm
    all_goals exact absurd h runIn_throw_ne_ok
  rw [hs']
  exact .worked (Machine.becomes_of_playOn hplay)

theorem changes_of_loadInput (h : runIn s.loadInput w = (.ok s', w')) : s.Changes s' := by
  unfold Simulator.loadInput at h
  obtain ⟨answer, w₁, -, h⟩ := runIn_bind_eq_ok h
  -- an answer that is no text may be shown on the tape, but it ends the session
  have hmarks : ∀ {answer marks}, runIn (s.showMarks answer marks) w₁ ≠ (.ok s', w') := by
    intro answer marks hshow
    unfold Simulator.showMarks at hshow
    obtain ⟨-, w₂, -, hthrow⟩ := runIn_bind_eq_ok hshow
    exact runIn_throw_ne_ok hthrow
  split at h
  · obtain ⟨rfl, -⟩ := runIn_pure_eq_ok h
    exact .worked (.load _ .refl)
  · exact absurd h hmarks
  · exact absurd h hmarks
  · exact absurd h runIn_throw_ne_ok

theorem changes_of_moveHead (h : runIn s.moveHead w = (.ok s', w')) : s.Changes s' := by
  unfold Simulator.moveHead at h
  obtain ⟨answer, w₁, -, h⟩ := runIn_bind_eq_ok h
  have hrefuse : runIn (Simulator.moveHead.refuse s) w₁ = (.ok s', w') → s.Changes s' := by
    intro h
    unfold Simulator.moveHead.refuse at h
    obtain ⟨-, w₂, -, hpure⟩ := runIn_bind_eq_ok h
    obtain ⟨rfl, -⟩ := runIn_pure_eq_ok hpure
    exact .worked .refl
  split at h
  · split at h
    · rename_i m hm
      obtain ⟨rfl, -⟩ := runIn_pure_eq_ok h
      obtain ⟨-, rfl⟩ := Machine.setHead_eq_ok hm
      exact .worked (.place _ _ .refl)
    · exact hrefuse h
  · obtain ⟨rfl, -⟩ := runIn_pure_eq_ok h
    exact .worked (.place _ _ .refl)
  · split at h
    · exact hrefuse h
    · exact absurd h runIn_throw_ne_ok
  · exact absurd h runIn_throw_ne_ok

theorem changes_of_runSuite (h : runIn s.runSuite w = (.ok s', w')) : s.Changes s' := by
  unfold Simulator.runSuite at h
  obtain ⟨answer, w₁, -, h⟩ := runIn_bind_eq_ok h
  split at h
  · obtain ⟨cases, w₂, -, h⟩ := runIn_bind_eq_ok h
    obtain ⟨-, w₃, -, h⟩ := runIn_bind_eq_ok h
    obtain ⟨j, w₄, -, h⟩ := runIn_bind_eq_ok h
    obtain ⟨-, w₅, -, h⟩ := runIn_bind_eq_ok h
    obtain ⟨rfl, -⟩ := runIn_pure_eq_ok h
    exact .listed _ _
  · exact absurd h runIn_throw_ne_ok

theorem changes_of_edit (h : runIn s.edit w = (.ok s', w')) : s.Changes s' := by
  unfold Simulator.edit at h
  obtain ⟨edited, w₁, hedit, h⟩ := runIn_bind_eq_ok h
  obtain ⟨rfl, -⟩ := runIn_pure_eq_ok h
  unfold editConfig at hedit
  obtain ⟨-, w₂, -, hedit⟩ := runIn_bind_eq_ok hedit
  obtain ⟨answers, w₃, hanswers, hedit⟩ := runIn_bind_eq_ok hedit
  obtain ⟨outcome, w₄, hsave, hedit⟩ := runIn_bind_eq_ok hedit
  split at hedit
  · obtain ⟨-, w₅, -, hedit⟩ := runIn_bind_eq_ok hedit
    obtain ⟨rfl, -⟩ := runIn_pure_eq_ok hedit
    exact .worked .refl
  · have hsaved := runIn_attempt_eq_ok hsave
    obtain ⟨adopted, w₅, hadopt, hedit⟩ := runIn_bind_eq_ok hedit
    obtain ⟨-, w₆, -, hedit⟩ := runIn_bind_eq_ok hedit
    obtain ⟨rfl, -⟩ := runIn_pure_eq_ok hedit
    obtain ⟨m, w₇, hm, hadopt⟩ := runIn_bind_eq_ok hadopt
    obtain ⟨rfl, -⟩ := runIn_pure_eq_ok hadopt
    obtain ⟨hm, -⟩ := runIn_ofResult_eq_ok hm
    obtain ⟨c, hc, rfl⟩ := Machine.setCapacity_eq_ok hm
    -- it was saved before the machine took its length over, so the length has been checked
    refine .edited (valid_of_saveConfig hsaved) (value?_putAll fun answer hanswer => ?_) hc
    obtain ⟨setting, hsetting, hname⟩ := exists_key_of_askSettings hanswers answer hanswer
    have hothers : ∀ setting ∈ editable, setting.1 ≠ Config.Key.machineFile := by decide
    exact ⟨setting.1, hothers setting hsetting, hname⟩

/-- A choice of the menu loads a program, or changes what it can. -/
theorem changes_of_carryOut {choice : Json}
    (h : runIn (s.carryOut choice) w = (.ok (some s'), w')) :
    choice = .str "6" ∧ runIn s.loadMachine w = (.ok s', w') ∨
      choice ≠ .str "6" ∧ s.Changes s' := by
  have hmap : ∀ {session : Session Simulator},
      runIn (some <$> session) w = (.ok (some s'), w') → runIn session w = (.ok s', w') := by
    intro session hsession
    obtain ⟨a, ha, hsome⟩ := runIn_map_eq_ok hsession
    rwa [Option.some.inj hsome] at ha
  have hother : ∀ {name : String}, name ≠ "6" → Json.str (Text.Loose.whole name) ≠ .str "6" :=
    fun hname heq => hname (Text.Loose.whole.inj (Json.str.inj heq))
  unfold Simulator.carryOut at h
  -- in the order of the menu
  split at h
  · obtain ⟨hs', -⟩ := runIn_pure_eq_ok h
    cases hs'
    exact .inr ⟨hother (by decide), .worked (.step .refl)⟩
  · obtain ⟨hs', -⟩ := runIn_pure_eq_ok h
    cases hs'
    exact .inr ⟨hother (by decide), .worked (.stepBack .refl)⟩
  · exact .inr ⟨hother (by decide), changes_of_play (hmap h)⟩
  · exact .inr ⟨hother (by decide), changes_of_loadInput (hmap h)⟩
  · exact .inr ⟨hother (by decide), changes_of_moveHead (hmap h)⟩
  · exact .inl ⟨rfl, hmap h⟩
  · exact .inr ⟨hother (by decide), changes_of_runSuite (hmap h)⟩
  · obtain ⟨_, w₁, -, hpure⟩ := runIn_bind_eq_ok (hmap h)
    obtain ⟨rfl, -⟩ := runIn_pure_eq_ok hpure
    exact .inr ⟨hother (by decide), .worked .refl⟩
  · exact .inr ⟨hother (by decide), changes_of_edit (hmap h)⟩
  · obtain ⟨_, w₁, -, hpure⟩ := runIn_bind_eq_ok h
    obtain ⟨hs', -⟩ := runIn_pure_eq_ok hpure
    contradiction
  · rename_i hsix _ _ _ _
    obtain ⟨hs', -⟩ := runIn_pure_eq_ok h
    cases hs'
    exact .inr ⟨hsix, .worked .refl⟩

end Simulator

end Command

end TapeMachine
