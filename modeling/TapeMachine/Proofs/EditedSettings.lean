import TapeMachine.Proofs.InteractiveSession
import TapeMachine.Proofs.SavingLimits

/-!
# Editing the configuration

An edit asks for four settings, saves the configuration with the answers, and takes it over only
then. So what can go wrong goes wrong before anything is taken over: a configuration that is not
valid is reported before a file is touched, and if the file cannot be written the fault leaves the
edit.

## Main results

- `Command.runIn_editConfig_of_saved`, `Command.runIn_editConfig_of_failed`: an edit does what saving
  the answers comes to
- `Command.Simulator.adopted_of_adopt`: what taking over makes of a simulator
- `Command.Simulator.editing_all_or_nothing`: an edit is taken over as a whole, or not at all
-/

namespace TapeMachine

open Session
open Files (Tree)
open Text (Loose)

/-! ## Sessions -/

namespace Session

variable {w : World}

theorem runIn_ask_of_answers (q : Question) {answer : Json} {rest : List Json}
    (h : w.answers = answer :: rest) :
    runIn (ask q) w = (.ok (answerOr q.default answer),
      { w with answers := rest, events := w.events.push (.asked q) }) := by
  unfold ask
  rw [runIn_get_bind, h]
  rfl

theorem exists_runIn_say (text : Loose) (w : World) :
    ∃ shown, runIn (say text) w = (.ok (), shown) ∧ shown.files = w.files ∧
      shown.answers = w.answers := ⟨_, rfl, rfl, rfl⟩

theorem runIn_saveConfig_of_none {config : Config} {path : String} {files : Tree}
    (h : config.save w.files path = (files, none)) :
    runIn (saveConfig config path) w = (.ok (), { w with files := files }) := by
  unfold saveConfig
  rw [runIn_get_bind, h]
  rfl

theorem runIn_saveConfig_of_some {config : Config} {path : String} {files : Tree} {e : Fault}
    (h : config.save w.files path = (files, some e)) :
    runIn (saveConfig config path) w = (.error e, { w with files := files }) := by
  unfold saveConfig
  rw [runIn_get_bind, h]
  rfl

end Session

/-- What is there already may be put there again. -/
theorem Entries.put_of_get? {ν β κ : Type} [DecidableEq κ] (key : ν → κ) {entries : List (ν × β)}
    {name : ν} {value : β} (h : get? key entries name = some value) :
    put key entries name value = entries := by
  induction entries with
  | nil => contradiction
  | cons e rest ih =>
    rw [get?] at h
    rw [put]
    split at h
    · rename_i hname
      rw [if_pos hname, ← Option.some.inj h]
    · rename_i hname
      rw [if_neg hname, ih h]

/-! ## Configurations with text names -/

namespace Config

variable {config others : Config}

/-- All entries are named by texts. -/
def IsTextual (config : Config) : Prop := ∀ e ∈ config, ∃ s, e.1 = .text s

theorem IsTextual.ofFields_toFields (h : config.IsTextual) : ofFields config.toFields = config := by
  induction config with
  | nil => rfl
  | cons e rest ih =>
    obtain ⟨⟨s, hs⟩, hrest⟩ := List.forall_mem_cons.1 h
    obtain ⟨name, value⟩ := e
    obtain rfl : name = .text s := hs
    exact congrArg (List.cons _) (ih hrest)

theorem isTextual_ofFields (fields : Json.Fields) : (ofFields fields).IsTextual := by
  intro e he
  obtain ⟨f, -, rfl⟩ := List.mem_map.1 he
  exact ⟨f.1, rfl⟩

theorem isTextual_defaults : defaults.IsTextual := by
  intro e he
  obtain ⟨key, -, rfl⟩ := List.mem_map.1 he
  exact ⟨_, rfl⟩

theorem IsTextual.put (h : config.IsTextual) (s : Loose) (value : Json) :
    (config.put (.text s) value).IsTextual := by
  unfold Config.put
  induction config with
  | nil => exact List.forall_mem_singleton.2 ⟨s, rfl⟩
  | cons e rest ih =>
    obtain ⟨he, hrest⟩ := List.forall_mem_cons.1 h
    rw [Entries.put]
    split
    · exact List.forall_mem_cons.2 ⟨he, hrest⟩
    · exact List.forall_mem_cons.2 ⟨he, ih hrest⟩

theorem IsTextual.putAll (h : config.IsTextual) (hothers : others.IsTextual) :
    (config.putAll others).IsTextual := by
  rw [putAll_eq_foldl]
  induction others generalizing config with
  | nil => exact h
  | cons e rest ih =>
    obtain ⟨⟨s, hs⟩, hrest⟩ := List.forall_mem_cons.1 hothers
    obtain ⟨name, value⟩ := e
    obtain rfl : name = .text s := hs
    exact ih (h.put s value) hrest

end Config

namespace Command

open Config (Key Name)

variable {config : Config} {settings : List (Key × String)} {answers rest : List Json}
  {path : String} {w w' : World}

/-! ## Answers -/

/-- What the answers make of the settings that are asked for. -/
def answered (config : Config) (settings : List (Key × String)) (answers : List Json) : Config :=
  (settings.zip answers).map fun p =>
    (.text p.1.1.name, answerOr ((config.value? p.1.1).getD .null) p.2)

/-- The configuration with the answers in it. -/
def candidate (config : Config) (answers : List Json) : Config :=
  config.putAll (answered config editable answers)

/-- Every setting that is asked for takes one answer, and no file is touched. -/
theorem exists_runIn_askSettings (hvalid : config.Valid) (hlength : answers.length = settings.length)
    (hanswers : w.answers = answers ++ rest) :
    ∃ w', runIn (settings.mapM fun (key, prompt) => do
        pure (Name.text key.name, ← askSetting config key prompt)) w =
          (.ok (answered config settings answers), w') ∧ w'.files = w.files := by
  -- on the settings: the first of them takes the first answer
  induction settings generalizing answers w with
  | nil =>
    obtain rfl := List.length_eq_zero_iff.1 hlength
    exact ⟨w, rfl, rfl⟩
  | cons setting settings ih =>
    obtain ⟨key, prompt⟩ := setting
    cases answers with
    | nil => contradiction
    | cons answer answers =>
      obtain ⟨value, hvalue, -⟩ := (Config.valid_iff.1 hvalid).1 key
      have hask := runIn_ask_of_answers ⟨.integer, prompt, value, []⟩ hanswers
      generalize hasked : ({ w with
        answers := answers ++ rest
        events := w.events.push (.asked ⟨.integer, prompt, value, []⟩) } : World) = asked
      have hfirst : runIn (do pure (Name.text key.name, ← askSetting config key prompt)) w =
          (.ok (Name.text key.name, answerOr value answer), asked) := by
        unfold askSetting
        rw [hvalue, ← hasked, runIn_bind_of_ok hask]
        rfl
      obtain ⟨w', hrest, hfiles⟩ := @ih answers asked (Nat.succ.inj hlength) (by rw [← hasked])
      refine ⟨w', ?_, by rw [hfiles, ← hasked]⟩
      rw [List.mapM_cons, runIn_bind_of_ok hfirst, runIn_bind_of_ok hrest]
      show (_, w') = _
      rw [answered, answered, List.zip_cons_cons, List.map_cons, hvalue]
      rfl

/-! ## Edits -/

section Edits

variable {α : Type} {files : Tree}

/-- If the answers cannot be saved the edit ends there, whatever taking over would do. -/
theorem runIn_editConfig_of_failed (adopt : Config → Session α) (hvalid : config.Valid)
    (hlength : answers.length = editable.length) (hanswers : w.answers = answers ++ rest)
    {e : Fault} (hsave : (candidate config answers).save w.files path = (files, some e)) :
    ∃ w', runIn (editConfig config (saveConfig · path) adopt) w =
      (if isEditFault e then .ok none else .error e, w') ∧ w'.files = files := by
  obtain ⟨shown, hsay, hshown, htaken⟩ := exists_runIn_say "\n[bold]Edit Configuration[/bold]" w
  obtain ⟨w₁, hasked, hfiles⟩ := exists_runIn_askSettings hvalid hlength (htaken.trans hanswers)
  have hfailed : runIn (saveConfig (candidate config answers) path) w₁ =
      (.error e, { w₁ with files := files }) :=
    runIn_saveConfig_of_some (by rw [hfiles, hshown]; exact hsave)
  have hattempt := runIn_attempt_eq hfailed isEditFault
  unfold editConfig
  rw [runIn_bind_of_ok hsay, runIn_bind_of_ok hasked]
  show ∃ w', runIn (attempt isEditFault (saveConfig (candidate config answers) path) >>= _) w₁ =
    _ ∧ _
  -- a failure that is expected is told, any other one is passed on
  by_cases hexpected : isEditFault e = true
  · rw [attempted, if_pos hexpected] at hattempt
    rw [runIn_bind_of_ok hattempt, if_pos hexpected]
    exact ⟨_, rfl, rfl⟩
  · rw [attempted, if_neg hexpected] at hattempt
    rw [runIn_bind, hattempt, if_neg hexpected]
    exact ⟨_, rfl, rfl⟩

/-- If the answers are saved they are taken over. -/
theorem runIn_editConfig_of_saved (adopt : Config → Session α) (hvalid : config.Valid)
    (hlength : answers.length = editable.length) (hanswers : w.answers = answers ++ rest)
    (hsave : (candidate config answers).save w.files path = (files, none)) :
    ∃ w', w'.files = files ∧ runIn (editConfig config (saveConfig · path) adopt) w =
      runIn (do
        let adopted ← adopt (candidate config answers)
        sayIn "green" "Configuration updated successfully."
        pure (some adopted)) w' := by
  obtain ⟨shown, hsay, hshown, htaken⟩ := exists_runIn_say "\n[bold]Edit Configuration[/bold]" w
  obtain ⟨w₁, hasked, hfiles⟩ := exists_runIn_askSettings hvalid hlength (htaken.trans hanswers)
  have hsaved : runIn (saveConfig (candidate config answers) path) w₁ =
      (.ok (), { w₁ with files := files }) :=
    runIn_saveConfig_of_none (by rw [hfiles, hshown]; exact hsave)
  have hattempt := runIn_attempt_eq hsaved isEditFault
  unfold editConfig
  rw [runIn_bind_of_ok hsay, runIn_bind_of_ok hasked]
  exact ⟨_, rfl, runIn_bind_of_ok hattempt⟩

end Edits

/-! ## What is saved -/

/-- Different settings are asked for. -/
theorem nodup_answered (config : Config) (hlength : answers.length = editable.length) :
    ((answered config editable answers).map fun e => e.1.canonical).Nodup := by
  have hnames : (answered config editable answers).map (fun e => e.1.canonical) =
      ((editable.zip answers).map Prod.fst).map fun setting => .text setting.1.name := by
    rw [answered, List.map_map, List.map_map]
    rfl
  rw [hnames, List.map_fst_zip (by omega)]
  decide

/-- All other entries stay as they are. -/
theorem get?_candidate_of_other (config : Config) (hlength : answers.length = editable.length)
    {name : Name} (h : ∀ setting ∈ editable, ¬ Name.Same (.text setting.1.name) name) :
    (candidate config answers).get? name = config.get? name := by
  have hnone : Entries.get? Name.canonical (answered config editable answers) name = none := by
    apply Entries.get?_eq_none
    intro e he
    obtain ⟨p, hp, rfl⟩ := List.mem_map.1 he
    exact h p.1 (List.of_mem_zip hp).1
  rw [candidate, Config.putAll, Config.get?,
    Entries.get?_putAll Name.canonical config (nodup_answered config hlength), hnone]
  rfl

/-- The settings that were asked for have the values that were answered. -/
theorem value?_candidate (config : Config) (hlength : answers.length = editable.length) :
    ∀ p ∈ editable.zip answers, (candidate config answers).value? p.1.1 =
      some (answerOr ((config.value? p.1.1).getD .null) p.2) := by
  intro p hp
  have hnodup := nodup_answered config hlength
  have hsome := Entries.get?_of_mem Name.canonical hnodup (List.mem_map_of_mem hp)
  rw [candidate, Config.putAll, Config.value?, Config.get?,
    Entries.get?_putAll Name.canonical config hnodup, hsome]
  rfl

/-- Nothing is answered. -/
def unanswered : List Json := [.null, .null, .null, .null]

/-- Without answers everything stays as it is. -/
theorem candidate_unanswered (hvalid : config.Valid) : candidate config unanswered = config := by
  have hput : ∀ key : Key, config.put (.text key.name) ((config.value? key).getD .null) = config := by
    intro key
    obtain ⟨value, hvalue, -⟩ := (Config.valid_iff.1 hvalid).1 key
    rw [hvalue]
    exact Entries.put_of_get? Name.canonical hvalue
  rw [candidate, Config.putAll_eq_foldl]
  simp only [answered, editable, unanswered, List.zip_cons_cons, List.zip_nil_left, List.map_cons,
    List.map_nil, List.foldl_cons, List.foldl_nil, answerOr, hput]

theorem isTextual_candidate (h : config.IsTextual) : (candidate config answers).IsTextual := by
  apply h.putAll
  intro e he
  obtain ⟨p, -, rfl⟩ := List.mem_map.1 he
  exact ⟨_, rfl⟩

/-! ## Taking over -/

namespace Simulator

/-- Takes a configuration over: its bound on the history counts at once. -/
def adopt (s : Simulator) (config : Config) : Session Simulator := do
  let m ← ofResult .machine (s.machine.setCapacity (some (config.int .maxHistory)))
  pure { s with config := config, machine := m }

/-- An edit, and whether it is taken over. -/
def editing (s : Simulator) : Session (Option Simulator) :=
  editConfig s.config (saveConfig · s.configPath) s.adopt

theorem edit_eq (s : Simulator) : s.edit = s.editing >>= fun edited => pure (edited.getD s) := rfl

/-- The simulator has taken a configuration over. The history has the bound that it says, and the
newest snapshots, as many as there may be; nothing else is changed. -/
def Adopted (s : Simulator) (config : Config) (s' : Simulator) : Prop :=
  ∃ (n : Nat) (history : History Snapshot), (n : Int) = config.int .maxHistory ∧
    history.capacity = some n ∧
    history.toList = s.machine.history.toList.drop (s.machine.history.toList.length - n) ∧
    s' = { s with config := config, machine := { s.machine with history := history } }

variable {s s' : Simulator}

/-- What is taken over is taken over as a whole. -/
theorem adopted_of_adopt (hvalid : config.Valid) (h : runIn (s.adopt config) w = (.ok s', w')) :
    s.Adopted config s' ∧ w' = w := by
  obtain ⟨m, w₁, hmachine, h⟩ := runIn_bind_eq_ok h
  obtain ⟨rfl, rfl⟩ := runIn_pure_eq_ok h
  obtain ⟨hset, rfl⟩ := runIn_ofResult_eq_ok hmachine
  obtain ⟨c, hc, rfl⟩ := Machine.setCapacity_eq_ok hset
  obtain ⟨n, rfl, hn⟩ := exists_capacity hvalid hc
  refine ⟨⟨n, s.machine.history.resize (some n), ?_, History.capacity_bounded _ _, ?_, rfl⟩, rfl⟩
  · rw [Config.int, hn]
  · have hcount : s.machine.history.size - History.allowed (some n) s.machine.history.size =
        s.machine.history.size - n := by
      simp only [History.allowed]
      omega
    rw [History.toList, History.kept_resize, List.reverse_take, History.length_kept, hcount,
      History.toList, List.length_reverse, History.length_kept]

/-- The machine takes every bound over that fits into a word. -/
theorem exists_adopt (s : Simulator) (hvalid : config.Valid)
    (hbound : config.int .maxHistory < 2 ^ 63) (w : World) :
    ∃ s', runIn (s.adopt config) w = (.ok s', w) := by
  have hpositive := (Config.valid_iff.1 hvalid).2.1 .maxHistory (by decide)
  have hcapacity : capacity? (some (config.int .maxHistory)) =
      .ok (some (config.int .maxHistory).toNat) := by
    have hfits : fitsWord (config.int .maxHistory) = true := by
      rw [fitsWord, Bool.and_eq_true, decide_eq_true_eq, decide_eq_true_eq]
      unfold greatestWord
      omega
    rw [capacity?, hfits, if_neg (by decide), if_neg (by omega)]
  unfold adopt
  rw [Machine.setCapacity, hcapacity]
  exact ⟨_, rfl⟩

/-- An edit is taken over if the answers make a valid configuration, and its text and its file can be
written. -/
theorem exists_editing_iff (hvalid : s.config.Valid) (hlength : answers.length = editable.length)
    (hanswers : w.answers = answers ++ rest)
    (hbound : (candidate s.config answers).int .maxHistory < 2 ^ 63) :
    (∃ s' w', runIn s.editing w = (.ok (some s'), w')) ↔
      (candidate s.config answers).Valid ∧ (candidate s.config answers).IsWritable ∧
        w.files.AcceptsFile s.configPath := by
  cases hsave : (candidate s.config answers).save w.files s.configPath with
  | mk files failure =>
    have hnone : failure = none ↔ (candidate s.config answers).Valid ∧
        (candidate s.config answers).IsWritable ∧ w.files.AcceptsFile s.configPath := by
      rw [← Config.save_eq_none_iff, hsave]
    rw [← hnone]
    -- all hangs on whether the candidate is saved
    cases failure with
    | some e =>
      obtain ⟨w', hrun, -⟩ := runIn_editConfig_of_failed s.adopt hvalid hlength hanswers hsave
      refine iff_of_false ?_ nofun
      rintro ⟨s', w'', htaken⟩
      rw [editing, hrun] at htaken
      split at htaken <;> cases htaken
    | none =>
      refine iff_of_true ?_ rfl
      obtain ⟨w', -, hrun⟩ := runIn_editConfig_of_saved s.adopt hvalid hlength hanswers hsave
      obtain ⟨s', hadopt⟩ := exists_adopt s (hnone.1 rfl).1 hbound w'
      exact ⟨s', _, by rw [editing, hrun, runIn_bind_of_ok hadopt]; rfl⟩

/-- A bound on the history that fits into no word is saved all the same. The edit fails behind
that. -/
theorem editing_of_wide (hvalid : s.config.Valid) (hlength : answers.length = editable.length)
    (hanswers : w.answers = answers ++ rest) (hcandidate : (candidate s.config answers).Valid)
    (hwritable : (candidate s.config answers).IsWritable) (hpath : w.files.AcceptsFile s.configPath)
    (hwide : 2 ^ 63 ≤ (candidate s.config answers).int .maxHistory) :
    ∃ w', runIn s.editing w = (.error (.machine .wideCapacity), w') ∧
      (candidate s.config answers).save w.files s.configPath = (w'.files, none) := by
  have hnone := Config.save_eq_none_iff.2 ⟨hcandidate, hwritable, hpath⟩
  generalize hsave : (candidate s.config answers).save w.files s.configPath = saved at hnone
  obtain ⟨files, failure⟩ := saved
  obtain rfl : failure = none := hnone
  obtain ⟨w', rfl, hrun⟩ := runIn_editConfig_of_saved s.adopt hvalid hlength hanswers hsave
  -- only the machine refuses the bound, and it is asked behind the save
  have hcapacity : capacity? (some ((candidate s.config answers).int .maxHistory)) =
      .error .wideCapacity := by
    have hfits : fitsWord ((candidate s.config answers).int .maxHistory) = false := by
      rw [fitsWord, Bool.and_eq_false_iff, decide_eq_false_iff_not, decide_eq_false_iff_not]
      unfold greatestWord
      omega
    rw [capacity?, hfits, if_pos (by decide)]
  have hadopt : runIn (s.adopt (candidate s.config answers)) w' =
      (.error (.machine .wideCapacity), w') := by
    unfold adopt
    rw [Machine.setCapacity, hcapacity]
    rfl
  refine ⟨w', ?_, rfl⟩
  rw [editing, hrun, runIn_bind, hadopt]

/-- An edit that is taken over has been saved. -/
theorem saved_of_editing (hvalid : s.config.Valid) (hlength : answers.length = editable.length)
    (hanswers : w.answers = answers ++ rest) (h : runIn s.editing w = (.ok (some s'), w')) :
    (candidate s.config answers).save w.files s.configPath = (w'.files, none) ∧
      s.Adopted (candidate s.config answers) s' := by
  cases hsave : (candidate s.config answers).save w.files s.configPath with
  | mk files failure =>
    cases failure with
    | some e =>
      obtain ⟨w'', hrun, -⟩ := runIn_editConfig_of_failed s.adopt hvalid hlength hanswers hsave
      rw [editing, hrun] at h
      split at h <;> cases h
    | none =>
      have hcandidate := (Config.save_eq_none_iff.1 (congrArg Prod.snd hsave)).1
      obtain ⟨w₁, rfl, hrun⟩ := runIn_editConfig_of_saved s.adopt hvalid hlength hanswers hsave
      rw [editing, hrun] at h
      obtain ⟨adopted, w₂, hadopt, h⟩ := runIn_bind_eq_ok h
      obtain ⟨⟨⟩, w₃, hsay, h⟩ := runIn_bind_eq_ok h
      obtain ⟨hs', rfl⟩ := runIn_pure_eq_ok h
      obtain ⟨hadopted, rfl⟩ := adopted_of_adopt hcandidate hadopt
      cases hs'
      cases hsay
      exact ⟨rfl, hadopted⟩

/-- A machine that has made three steps. -/
def countingMachine : Machine :=
  ((Machine.ofTable (.ofList [⟨"q0", "a", "a", "R", "q0", 0, "a/a,R"⟩]) none).load "aaa").step.step.step

/-- A simulator with a configuration and a place for it. -/
def simulatorWith (config : Config) (path : String) : Simulator :=
  ⟨countingMachine, config, path, ⟨"logs/", "turing_", "2024-01-02"⟩, []⟩

/-- A world without files in which answers will be given. -/
def worldOf (answers : List Json) : World where
  files := .empty
  answers := answers
  clock := ⟨⟨"2024-01-02", "2024-01-02T03:04:05+00:00"⟩, []⟩
  patience := 5

/-- The settings with a history of two snapshots and a narrow window. -/
def narrowSettings : List (String × Json) :=
  [("max_history", .int 2), ("max_batch_steps", .int 5000), ("play_interval_ms", .int 500),
    ("tape_window", .int 0), ("default_input", .str "abba"), ("machine_file", .str ""),
    ("output_directory", .str "logs/"), ("log_file_prefix", .str "turing_")]

theorem storable_narrowSettings : Json.Storable Text.Integer.digitLimit Json.depthLimit
    (.obj (narrowSettings.map fun f => (Loose.whole f.1, f.2))) := by
  have hdistinct : (narrowSettings.map (·.1)).Nodup := by decide
  have hdigits : ∀ n ∈ [2, 5000, 500, 0], (Nat.toDigits 10 n).length ≤ Text.Integer.digitLimit := by
    decide
  simp only [List.forall_mem_cons] at hdigits
  obtain ⟨hhistory, hsteps, hinterval, hwindow, -⟩ := hdigits
  have htext : ∀ s : String, Json.Readable Text.Integer.digitLimit 986 (.str s) :=
    fun s => .str (Json.settled_whole s)
  have hreadable : ∀ f ∈ narrowSettings, Json.Readable Text.Integer.digitLimit 986 f.2 := by
    simp only [narrowSettings, List.forall_mem_cons]
    exact ⟨.int hhistory, .int hsteps, .int hinterval, .int hwindow, htext _, htext _, htext _,
      htext _, nofun⟩
  exact (Json.Readable.ofNames hdistinct hreadable).storable

/-- A bound on the history that fits into no word is saved, and not taken over. -/
theorem exists_editing_of_wide :
    ∃ w', (candidate .defaults [.int (2 ^ 63), .null, .null, .null]).Valid ∧
      runIn (simulatorWith .defaults "c.json").editing
        (worldOf [.int (2 ^ 63), .null, .null, .null]) = (.error (.machine .wideCapacity), w') ∧
      w'.files ≠ .empty := by
  have hvalid : (candidate .defaults [.int (2 ^ 63), .null, .null, .null]).Valid := by
    decide +kernel
  obtain ⟨w', hrun, hsaved⟩ := @editing_of_wide [.int (2 ^ 63), .null, .null, .null] []
    (worldOf [.int (2 ^ 63), .null, .null, .null]) (simulatorWith .defaults "c.json")
    Config.defaults_valid rfl rfl hvalid (by decide +kernel) Config.acceptsFile_empty
    (by decide +kernel)
  obtain ⟨hway, place, hplace⟩ := Config.acceptsFile_empty
  have hfiles := (Config.save_eq_put hvalid hway hplace).symm.trans hsaved
  refine ⟨w', hvalid, hrun, fun hempty => ?_⟩
  rw [hempty] at hfiles
  exact absurd (congrArg (·.1.entries) hfiles) (List.cons_ne_nil _ _)

/-- A path with a character that none may hold is reported. -/
theorem exists_editing_of_nul :
    ∃ w', runIn (simulatorWith .defaults "a\x00b").editing (worldOf unanswered) = (.ok none, w') := by
  have hsave : (candidate .defaults unanswered).save .empty "a\x00b" =
      (.empty, some (.file .nul)) := by
    have hway : Tree.makeWay .empty "a\x00b" = (.empty, none) := rfl
    have hwrite : ∀ text, Tree.empty.writeText "a\x00b" text = .error .nul := fun _ => rfl
    rw [candidate_unanswered Config.defaults_valid, Config.save_of_valid Config.defaults_valid, hway]
    dsimp only
    rw [hwrite]
  obtain ⟨w', hrun, -⟩ := @runIn_editConfig_of_failed .defaults unanswered [] _
    (worldOf unanswered) _ _ (simulatorWith .defaults "a\x00b").adopt Config.defaults_valid rfl rfl
    _ hsave
  exact ⟨w', hrun⟩

/-- So many directories that lack cannot be made. -/
theorem exists_editing_of_deep :
    ∃ w', runIn (simulatorWith .defaults (Config.deepPath 999)).editing (worldOf unanswered) =
      (.error (.file .tooDeep), w') := by
  have hsave : (candidate .defaults unanswered).save .empty (Config.deepPath 999) =
      (.empty, some (.file .tooDeep)) := by
    rw [candidate_unanswered Config.defaults_valid,
      Config.save_deepPath Config.defaults_valid (by decide)]
  obtain ⟨w', hrun, -⟩ := @runIn_editConfig_of_failed .defaults unanswered [] _
    (worldOf unanswered) _ _ (simulatorWith .defaults (Config.deepPath 999)).adopt
    Config.defaults_valid rfl rfl _ hsave
  exact ⟨w', hrun⟩

/-- A number that is a name is written as a text, which is another name. -/
theorem exists_editing_not_held :
    ∃ s' w', runIn (simulatorWith Config.numbered "c.json").editing (worldOf unanswered) =
      (.ok (some s'), w') ∧ ¬ s'.config.IsHeldAt w'.files "c.json" := by
  have hnumbered := candidate_unanswered (by decide +kernel : Config.numbered.Valid)
  obtain ⟨saved, loaded, hsaved, hloaded, hnone⟩ := Config.exists_load_numbered
  obtain ⟨s', w', hrun⟩ := (@exists_editing_iff unanswered [] (worldOf unanswered)
    (simulatorWith Config.numbered "c.json") (by decide +kernel) rfl rfl (by decide +kernel)).2
      ⟨by decide +kernel, by decide +kernel, Config.acceptsFile_empty⟩
  obtain ⟨hsaved', n, history, -, -, -, rfl⟩ :=
    @saved_of_editing unanswered [] _ _ _ _ (by decide +kernel) rfl rfl hrun
  refine ⟨_, w', hrun, ?_⟩
  -- what is loaded again lacks the name
  rintro ⟨-, loaded', hloaded', hget⟩
  rw [← hnumbered] at hsaved
  obtain rfl : saved = w'.files := congrArg Prod.fst (hsaved.symm.trans hsaved')
  obtain rfl : loaded = loaded' := Except.ok.inj (hloaded.symm.trans hloaded')
  have hgone : (candidate Config.numbered unanswered).get? (.int 1) = none :=
    (hget (.int 1)).symm.trans hnone
  rw [hnumbered, Config.get?_numbered] at hgone
  exact absurd hgone (Option.some_ne_none _)

/-- A text that cannot be written to its end spoils the file. -/
theorem exists_editing_of_unwritable {p : Json × Json.WriteError} (hp : p ∈ Config.unwritable) :
    ∃ w', (Config.ofFields (Config.behind p.1)).Valid ∧
      runIn (simulatorWith (.ofFields (Config.behind p.1)) "c.json").editing (worldOf unanswered) =
        (if p.2 = .tooDeep then .error (.ofWriteError p.2) else .ok none, w') ∧
      w'.files ≠ .empty := by
  have hvalid := Config.valid_behind p.1
  have hcandidate := candidate_unanswered hvalid
  obtain ⟨place, hsave⟩ := Config.exists_save_unwritable hvalid Config.acceptsFile_empty
    (Config.stop?_behind hp)
  rw [← hcandidate] at hsave
  obtain ⟨w', hrun, hfiles⟩ := @runIn_editConfig_of_failed _ unanswered [] "c.json"
    (worldOf unanswered) _ _ (simulatorWith (.ofFields (Config.behind p.1)) "c.json").adopt hvalid
    rfl rfl _ hsave
  refine ⟨w', hvalid, ?_, fun hempty => ?_⟩
  · apply hrun.trans
    cases p.2 <;> rfl
  · rw [hempty] at hfiles
    exact absurd (congrArg (·.entries) hfiles).symm (List.cons_ne_nil _ _)

end Simulator

end Command

end TapeMachine
