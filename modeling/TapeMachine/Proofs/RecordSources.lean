import TapeMachine.Proofs.PalindromeProgram
import TapeMachine.Proofs.ProgramOrigins
import TapeMachine.Proofs.SingleRun

/-!
# Which program a record names

Every record of a run, and every summary of a suite, names a program. The interactive simulator
takes the name from its configuration, which is the path from which the table comes. Only if no
program could be loaded so far do summaries bear the name of one that is not in the machine.

A single run takes the name from the command line, but the program may come from the configuration;
then the name is not that of the program.

## Main results

- `Simulator.changesFiles_turn`: a turn appends at most one record, about the machine and under the
  name
- `records_attributed`: the records of single runs and of sessions
-/

namespace TapeMachine.Command

open Session
open Text (Loose)

/-! ## Records -/

/-- A record that tells of a machine under a name. -/
def IsRunRecord (m : Machine) (source : Loose) (entry : Json) : Prop :=
  ∃ stamp, entry = Journal.runEntry m (.str source) stamp

/-- A summary that tells, under a name, of a suite that was run on a table. -/
def IsSummary (table : Table) (source : Loose) (entry : Json) : Prop :=
  ∃ inputs bound cases, TapeMachine.Suite.run table (Suite.cases inputs) bound = .ok cases ∧
    entry = .obj (("source", .str source) :: Journal.summaryFields (Suite.summarize cases))

/-- A record tells of a table under a name: how a machine with the table ended a run, or how the
table did on a suite. -/
structure TellsOf (table : Table) (source : Loose) (entry : Json) : Prop where
  named : entry.field? "source" = some (.str source)
  about : (∃ m : Machine, m.table = table ∧ IsRunRecord m source entry) ∨
    IsSummary table source entry

theorem IsRunRecord.tellsOf {m : Machine} {source : Loose} {entry : Json}
    (h : IsRunRecord m source entry) : TellsOf m.table source entry := by
  refine ⟨?_, .inl ⟨m, rfl, h⟩⟩
  obtain ⟨stamp, rfl⟩ := h
  exact Journal.field?_source_runEntry m (.str source) stamp

theorem IsSummary.tellsOf {table : Table} {source : Loose} {entry : Json}
    (h : IsSummary table source entry) : TellsOf table source entry := by
  refine ⟨?_, .inr h⟩
  obtain ⟨inputs, bound, cases, -, rfl⟩ := h
  rfl

/-- What has become of the files: nothing, or a configuration was saved at the path of one, if there
is such a path, or a record was appended to the main file of a journal. -/
inductive Changed (path : Option String) (records : Json → Prop) (before after : Files.Tree) : Prop
  | kept (h : after = before)
  | saved (config : Config) (file : String) (hfile : path = some file)
      (h : after = (config.save before file).1)
  | recorded (j : Journal) (entry : Json) (hentry : records entry)
      (h : j.write before .main [entry] = .ok after)

theorem Changed.mono {path : Option String} {P Q : Json → Prop} {before after : Files.Tree}
    (h : Changed path P before after) (hPQ : ∀ entry, P entry → Q entry) :
    Changed path Q before after := by
  cases h with
  | kept h => exact .kept h
  | saved config file hfile h => exact .saved config file hfile h
  | recorded j entry hentry h => exact .recorded j entry (hPQ entry hentry) h

/-- The files change at most by a configuration or by a record. -/
def ChangesFiles (path : Option String) (records : Json → Prop) (w w' : World) : Prop :=
  Changed path records w.files w'.files

/-- To open a journal makes its directory, and the directories above it, and does nothing else. -/
theorem makesDirectory_openJournal (directory logPrefix : Loose) :
    Within (fun w w' => w'.files = (w.files.ensureDirectories directory).1)
      (openJournal directory logPrefix) := by
  intro w
  unfold openJournal
  rw [runIn_bind, runIn_makeDirectories]
  cases (w.files.ensureDirectories directory).2 <;> rfl

section Changes

variable {α β : Type} {path : Option String} {records : Json → Prop} {s : Session α}
  {f : α → Session β}

theorem changesFiles_of_keeps (h : Within KeepsFiles s) : Within (ChangesFiles path records) s :=
  fun w => .kept (h w)

theorem changesFiles_keeps_bind (hs : Within KeepsFiles s)
    (hf : ∀ a, Within (ChangesFiles path records) (f a)) :
    Within (ChangesFiles path records) (s >>= f) := by
  refine hs.bind hf (fun h => .kept h) ?_
  intro w w₁ w' hkeeps hchanges
  rw [ChangesFiles, ← show w₁.files = w.files from hkeeps]
  exact hchanges

theorem changesFiles_bind_keeps (hs : Within (ChangesFiles path records) s)
    (hf : ∀ a, Within KeepsFiles (f a)) : Within (ChangesFiles path records) (s >>= f) := by
  refine hs.bind hf (fun h => h) ?_
  intro w w₁ w' hchanges hkeeps
  rw [ChangesFiles, show w'.files = w₁.files from hkeeps]
  exact hchanges

theorem changesFiles_map (hs : Within (ChangesFiles path records) s) (g : α → β) :
    Within (ChangesFiles path records) (g <$> s) := by
  rw [map_eq_pure_bind]
  exact changesFiles_bind_keeps hs fun a => keeping.pure _

/-- A record is appended, or the journal cannot be written to. -/
theorem changesFiles_writeJournal (j : Journal) {entry : Json} (h : records entry) :
    Within (ChangesFiles path records) (writeJournal j .main [entry]) := by
  intro w
  unfold writeJournal setFiles
  rw [runIn_get_bind]
  cases hwrite : j.write w.files .main [entry] with
  | ok files => exact .recorded j entry h hwrite
  | error e => exact .kept rfl

theorem changesFiles_saveConfig (config : Config) (file : String) :
    Within (ChangesFiles (some file) records) (saveConfig config file) := by
  intro w
  refine .saved config file rfl ?_
  unfold saveConfig
  rw [runIn_get_bind]
  dsimp only
  rw [runIn_bind_of_ok (runIn_modify _ w)]
  split <;> rfl

end Changes

/-! ## Sessions -/

namespace Simulator

/-- What may be written about a simulator: how its machine ended a run, and how its table did on a
suite, both under the name in the configuration. -/
def MayRecord (s : Simulator) (entry : Json) : Prop :=
  s.machine.stepCount ≠ 0 ∧
      IsRunRecord s.machine (sourceName (s.config.text .machineFile)) entry ∨
    IsSummary s.machine.table (sourceName (s.config.text .machineFile)) entry

theorem changesFiles_runSuite (s : Simulator) :
    Within (ChangesFiles (some s.configPath) s.MayRecord) s.runSuite := by
  refine changesFiles_keeps_bind (keeping_ask _) fun answer => ?_
  split
  · rename_i line
    dsimp only
    cases hrun : TapeMachine.Suite.run s.machine.table (Suite.cases (Suite.readInputs line.mended))
      (s.config.int .maxBatchSteps) with
    | error e => exact fun w => .kept rfl
    | ok cases =>
      -- the results are shown before the journal is opened for the day
      rw [show ofResult Fault.move (.ok cases) = pure cases from rfl, pure_bind]
      refine changesFiles_keeps_bind (keeping.draw _) fun _ => ?_
      refine changesFiles_keeps_bind (keeping.rotateJournal _) fun j => ?_
      refine changesFiles_bind_keeps (changesFiles_writeJournal j ?_) fun _ => keeping.pure _
      exact .inr ⟨_, _, cases, hrun, rfl⟩
  · exact changesFiles_of_keeps (keeping.throw _)

theorem changesFiles_edit (s : Simulator) :
    Within (ChangesFiles (some s.configPath) s.MayRecord) s.edit := by
  refine changesFiles_bind_keeps ?_ fun _ => keeping.pure _
  refine changesFiles_keeps_bind (keeping.say _) fun _ => ?_
  refine changesFiles_keeps_bind (keeping.askSettings keeping_ask _) fun answers => ?_
  refine changesFiles_bind_keeps ((changesFiles_saveConfig _ _).attempt _) fun outcome => ?_
  cases outcome with
  | error e => exact keeping.bind (keeping.sayIn _ _) fun _ => keeping.pure _
  | ok _ =>
    exact keeping.bind (keeping.bind (keeping.ofResult _ _) fun _ => keeping.pure _) fun _ =>
      keeping.bind (keeping.sayIn _ _) fun _ => keeping.pure _

theorem changesFiles_leave (s : Simulator) :
    Within (ChangesFiles (some s.configPath) s.MayRecord) s.leave := by
  unfold leave
  split
  · rename_i hsteps
    refine changesFiles_keeps_bind (keeping.askYesNo keeping_ask _ _) fun yes => ?_
    cases yes with
    | true =>
      refine changesFiles_bind_keeps ?_ fun _ => keeping.say _
      refine changesFiles_keeps_bind keeping.readClock fun now => ?_
      exact changesFiles_writeJournal _ (.inl ⟨hsteps, _, rfl⟩)
    | false => exact changesFiles_of_keeps (keeping.say _)
  · exact changesFiles_of_keeps (keeping.say _)

/-- A turn appends at most one record, about the machine and under the name that the configuration
holds. -/
theorem changesFiles_turn (s : Simulator) :
    Within (ChangesFiles (some s.configPath) s.MayRecord) s.turn := by
  refine changesFiles_keeps_bind (keeping.choose keeping_ask s) fun choice => ?_
  unfold carryOut
  -- a suite, an edit and the end of the session may write, and no other choice does
  split
  · exact changesFiles_of_keeps (keeping.pure _)
  · exact changesFiles_of_keeps (keeping.pure _)
  · exact changesFiles_of_keeps (keeping.map (keeping.play s) _)
  · exact changesFiles_of_keeps (keeping.map (keeping.loadInput keeping_ask s) _)
  · exact changesFiles_of_keeps (keeping.map (keeping.moveHead keeping_ask s) _)
  · exact changesFiles_of_keeps (keeping.map (keeping.loadMachine keeping_ask s) _)
  · exact changesFiles_map s.changesFiles_runSuite _
  · exact changesFiles_of_keeps (keeping.map (keeping.showDiagram s) _)
  · exact changesFiles_map s.changesFiles_edit _
  · exact changesFiles_bind_keeps s.changesFiles_leave fun _ => keeping.pure _
  · exact changesFiles_of_keeps (keeping.pure _)

/-- Until the menu is shown for the first time nothing is recorded. -/
theorem files_start (config : Config) (path : String) (w : World) :
    (runIn (start config path) w).2.files =
      (w.files.ensureDirectories (config.text .outputDirectory)).1 := by
  have hopen :=
    makesDirectory_openJournal (config.text .outputDirectory) (config.text .logPrefix)
  refine hopen.bind (fun j => show Within KeepsFiles _ from ?_) (fun h => h)
    (fun h h' => h'.trans h) w
  refine keeping.bind (keeping.bind (keeping.ofResult _ _) fun _ => keeping.pure _) fun m => ?_
  refine keeping.bind (keeping.compileProgram _ (keeping.programText _)) fun outcome => ?_
  cases outcome with
  | ok m => exact keeping.pure _
  | error e => exact keeping.bind (keeping.sayIn _ _) fun _ => keeping.pure _

end Simulator

/-! ## Single runs -/

namespace Simulate

/-- What a single run has made of the files: nothing, or the journal was opened and a record
appended to it. -/
def Recorded (config : Config) (records : Json → Prop) (w w' : World) : Prop :=
  w'.files = w.files ∨
    Changed none records (w.files.ensureDirectories (config.text .outputDirectory)).1 w'.files

theorem recorded_keeps_bind {α β : Type} {config : Config} {records : Json → Prop} {s : Session α}
    {f : α → Session β} (hs : Within KeepsFiles s)
    (hf : ∀ a, Within (Recorded config records) (f a)) :
    Within (Recorded config records) (s >>= f) := by
  refine hs.bind hf .inl ?_
  intro w w₁ w' hkeeps hrecorded
  rw [Recorded, ← show w₁.files = w.files from hkeeps]
  exact hrecorded

/-- The journal is opened, and one record appended to it. -/
theorem recorded_logRun (config : Config) (m : Machine) (source : Loose) (status : Nat) :
    Within (Recorded config (IsRunRecord m source)) (do
      let j ← openJournal (config.text .outputDirectory) (config.text .logPrefix)
      Simulator.logRun j m (.str source)
      pure status) := by
  have hopen :=
    makesDirectory_openJournal (config.text .outputDirectory) (config.text .logPrefix)
  refine hopen.bind (fun j => show Within (ChangesFiles none (IsRunRecord m source)) _ from ?_)
    (fun h => .inr (.kept h)) fun h h' => .inr ?_
  · refine changesFiles_bind_keeps ?_ fun _ => keeping.pure _
    exact changesFiles_keeps_bind keeping.readClock fun now =>
      changesFiles_writeJournal j ⟨_, rfl⟩
  · unfold ChangesFiles at h'
    rwa [h] at h'

/-- A machine that has run is shown, or a fault ends the run, and then it is recorded. -/
theorem recorded_run (config : Config) (r : Machine.Run) (input : Option String)
    (source : Loose) :
    Within (Recorded config (IsRunRecord r.machine source)) (do
      if let some move := r.fault then throw (.move ⟨move⟩)
      showTape config r.machine
      if input.isNone then throw (.noMarkup noValue)
      showStatus r.machine
      let j ← openJournal (config.text .outputDirectory) (config.text .logPrefix)
      Simulator.logRun j r.machine (.str source)
      pure (if r.machine.status = .accepted then 0 else 2)) := by
  -- before the journal is opened nothing is changed, so a fault until then records nothing
  cases r.fault with
  | some move => exact fun w => .inl rfl
  | none =>
    refine recorded_keeps_bind (keeping.showTape _ _) fun _ => ?_
    cases input with
    | none => exact fun w => .inl rfl
    | some input =>
      refine recorded_keeps_bind (keeping.showStatus _) fun _ => ?_
      exact recorded_logRun config r.machine source _

/-- A single run records nothing, or it appends one record, about a machine with the program, under
the name on the command line. -/
theorem files_runOne (config : Config) (file : String) (input : Option String)
    (bound : Option Int) (w : World) :
    (runIn (runOne config file input bound) w).2.files = w.files ∨
      ∃ o m, originAt w.files (programPath config file) = some o ∧ m.table = o.program.table ∧
        Changed none (IsRunRecord m (sourceName file))
          (w.files.ensureDirectories (config.text .outputDirectory)).1
          (runIn (runOne config file input bound) w).2.files := by
  generalize hafter : (runIn (runOne config file input bound) w).2.files = after
  unfold runOne machineFor at hafter
  cases hcapacity : capacity? (some (config.int .maxHistory)) with
  | error e =>
    rw [hcapacity] at hafter
    exact .inl hafter.symm
  | ok c =>
    rw [hcapacity, show ofResult Fault.machine (.ok c) = pure c from rfl, pure_bind, pure_bind]
      at hafter
    generalize (Machine.ofTable .empty c).load (input.getD "") = fresh at hafter
    -- the program is looked for in the files as they are, before the journal is opened
    change (runIn (compileProgram fresh (programText (programPath config file)) >>= _) w).2.files =
      after at hafter
    rw [runIn_bind] at hafter
    cases hcompile : runIn (compileProgram fresh (programText (programPath config file))) w with
    | mk r w₁ =>
      rw [hcompile] at hafter
      cases r with
      | error e =>
        have hfiles := (keeping.compileProgram fresh (keeping.programText _)).of_run hcompile
        exact .inl (hafter.symm.trans hfiles)
      | ok outcome =>
        obtain ⟨rfl, ⟨p, hprogram, rfl⟩ | ⟨-, e, rfl⟩⟩ := compileProgram_cases hcompile
        · have htable : ((fresh.install p).run (boundOr config bound)).machine.table = p.table :=
            Machine.table_run (fresh.install p) _
          have hrecorded := recorded_run config ((fresh.install p).run (boundOr config bound)) input
            (sourceName file) w₁
          rw [← hafter]
          exact hrecorded.imp id fun hchanged =>
            ⟨_, _, originAt_of_program hprogram, htable, hchanged⟩
        · exact .inl hafter.symm

/-- The name on the command line is that of the program, unless the program is the one that the
configuration names. -/
theorem sourceName_programPath {config : Config} {file : String}
    (h : file = "" → config.text .machineFile = "") :
    sourceName (programPath config file) = sourceName file := by
  unfold programPath
  split
  · rename_i hfile
    rw [h hfile, hfile]
  · rfl

end Simulate

/-! ## Single runs and sessions -/

open Simulate (programPath runOne)
open Simulator (Shows menuAfter)

/-- What is recorded tells of the table in the machine. In a session it names the path from which
the table comes. Without a program there are summaries only, and they bear the name of the program
that was looked for at the start. In a single run the name is the one on the command line, which is
that of the program unless only the configuration names one. -/
theorem records_attributed (config : Config) (w : World) :
    (∀ file input bound, (runIn (runOne config file input bound) w).2.files = w.files ∨
      ∃ o, originAt w.files (programPath config file) = some o ∧
        Changed none (TellsOf o.program.table (sourceName file))
          (w.files.ensureDirectories (config.text .outputDirectory)).1
          (runIn (runOne config file input bound) w).2.files ∧
        ((file = "" → config.text .machineFile = "") → sourceName file = sourceName o.path)) ∧
    (∀ path, (runIn (Simulator.start config path) w).2.files =
      (w.files.ensureDirectories (config.text .outputDirectory)).1) ∧
    ∀ path interrupts s w', runIn (menuAfter config path interrupts) w = (.ok s, w') →
      ∃ o, Shows config path w o s w' ∧ s.machine.table = tableOf o ∧
        ∀ interruptAt, Changed (some s.configPath) (fun entry =>
            TellsOf (tableOf o) (sourceName (pathOr (config.text .machineFile) o)) entry ∧
            (o = none → IsSummary .empty (sourceName (config.text .machineFile)) entry))
          w'.files (runIn s.turn { w' with interruptAt := interruptAt }).2.files := by
  refine ⟨fun file input bound => ?_, fun path => Simulator.files_start config path w, ?_⟩
  · refine (Simulate.files_runOne config file input bound w).imp id ?_
    rintro ⟨o, m, ho, htable, hchanged⟩
    refine ⟨o, ho, hchanged.mono fun entry hentry => htable ▸ hentry.tellsOf, fun hfile => ?_⟩
    obtain ⟨p, -, rfl⟩ := Option.map_eq_some_iff.1 ho
    exact (Simulate.sourceName_programPath hfile).symm
  · intro path interrupts s w' hmenu
    obtain ⟨o, hshows⟩ := Simulator.exists_shows_of_menuAfter hmenu
    have hs := hshows.isAttributed
    -- what the turn records is about this simulator, whose table and name come from there
    refine ⟨o, hshows, hs.table, fun interruptAt => ?_⟩
    refine (s.changesFiles_turn { w' with interruptAt := interruptAt }).mono fun entry hentry => ?_
    unfold Simulator.MayRecord at hentry
    rw [hs.name, hs.table] at hentry
    rcases hentry with ⟨hsteps, hrecord⟩ | hsummary
    · refine ⟨hs.table ▸ hrecord.tellsOf, ?_⟩
      -- without a program no step was made
      rintro rfl
      exact absurd hs.stepCount_eq_zero hsteps
    · refine ⟨hsummary.tellsOf, ?_⟩
      rintro rfl
      exact hsummary

/-- Answers that load a program, make a step, and leave with a record of the run. -/
def loadedWorld : World :=
  { Simulator.sampleWorld with
    answers := [.str "6", .str "m.tm", .str "1", .str "0", .bool true] }

/-- A configuration with a program that is not there. -/
def missingConfig : Config := Config.defaults.set .machineFile (.str "n.tm")

/-- The session starts without a program. After one was loaded and has made a step, it leaves with a
record. -/
theorem records_attributed_loaded :
    ∃ s w', runIn (menuAfter missingConfig "c.json" [none, none]) loadedWorld = (.ok s, w') ∧
      s.config.text .machineFile = "m.tm" ∧ s.machine.stepCount = 1 ∧
      (runIn s.turn w').2.files ≠ w'.files ∧
      ∃ o, Shows missingConfig "c.json" loadedWorld o s w' ∧ s.machine.table = tableOf o ∧
        Changed (some s.configPath) (fun entry =>
            TellsOf (tableOf o) (sourceName (pathOr (missingConfig.text .machineFile) o)) entry ∧
            (o = none → IsSummary .empty (sourceName (missingConfig.text .machineFile)) entry))
          w'.files (runIn s.turn w').2.files := by
  obtain ⟨s, w', hrun, hends⟩ := exists_of_endsWith (w := loadedWorld)
    (s := menuAfter missingConfig "c.json" [none, none])
    (P := fun s w' => decide (s.config.text .machineFile = "m.tm") &&
      decide (s.machine.stepCount = 1) && decide ((runIn s.turn w').2.files ≠ w'.files))
    (by decide +kernel)
  simp only [Bool.and_eq_true, decide_eq_true_eq] at hends
  obtain ⟨⟨hname, hsteps⟩, hfiles⟩ := hends
  obtain ⟨o, hshows, htable, hchanged⟩ :=
    (records_attributed missingConfig loadedWorld).2.2 "c.json" [none, none] s w' hrun
  exact ⟨s, w', hrun, hname, hsteps, hfiles, o, hshows, htable, hchanged w'.interruptAt⟩

/-- A world with a configuration that names a program. -/
def configuredWorld : World where
  files := ⟨[(["c.json"], .file "\x7b\"machine_file\": \"m.tm\"\x7d".toUTF8),
    (["m.tm"], .file "q0 b/c,R ha".toUTF8)]⟩
  clock := Simulator.sampleWorld.clock
  patience := 0

/-- The run of an input under a configuration in a file. -/
def configuredRun (config : Config) : SingleRun := ⟨[("--config", some "c.json")], config, "b"⟩

/-- The configuration leads to a program that does not write what the bundled one writes. -/
theorem exists_configuration : ∃ config, (configuredRun config).IsAskedFor ["--config", "c.json"]
      configuredWorld ∧
    (configuredRun config).HasRoom configuredWorld ∧ config.text .machineFile = "m.tm" ∧
    ∃ p, ((configuredRun config).content configuredWorld).program? = some p ∧
      p.table.action? startState "b" = some ("c", some .right, acceptState) ∧
      ((configuredRun config).ended p).status = .accepted := by
  have hload : (Config.load configuredWorld.files "c.json").isOk = true := by decide +kernel
  -- everything about the configuration is evaluated in one go
  have hall : ((Config.load configuredWorld.files "c.json").toOption.all fun config =>
      let r := configuredRun config
      fitsWord (config.int .maxHistory) &&
      (configuredWorld.files.ensureDirectories (config.text .outputDirectory)).2.isNone &&
      ((r.made configuredWorld).fileAt? ((r.journal configuredWorld.clock).path .main)).isSome &&
      decide (config.text .machineFile = "m.tm") &&
      (r.content configuredWorld).program?.isSome &&
      (r.content configuredWorld).program?.all fun p =>
        (((r.ended p).drawTape (config.int .tapeWindow)).isOk && (r.ended p).statusLine.isOk) &&
        decide (p.table.action? startState "b" = some ("c", some .right, acceptState)) &&
        decide ((r.ended p).status = .accepted)) = true := by decide +kernel
  obtain ⟨config, hconfig⟩ := exists_of_isOk hload
  rw [hconfig] at hall
  simp only [Except.toOption, Option.all_some, Bool.and_eq_true, decide_eq_true_eq,
    Option.isNone_iff_eq_none] at hall
  obtain ⟨⟨⟨⟨⟨hhistory, hdirectory⟩, hlog⟩, hname⟩, hsome⟩, hprogram⟩ := hall
  obtain ⟨p, hp⟩ := Option.isSome_iff_exists.1 hsome
  rw [hp, Option.all_some] at hprogram
  simp only [Bool.and_eq_true, decide_eq_true_eq] at hprogram
  obtain ⟨⟨⟨htape, hline⟩, haction⟩, hstatus⟩ := hprogram
  have hinput : "b" ≠ "--" := by decide
  refine ⟨config, ⟨rfl, hinput, "c.json", .inl rfl, .inl ⟨by decide +kernel, hconfig⟩⟩,
    ⟨hhistory, hdirectory, hlog, fun q hq => ?_⟩, hname, p, hp, haction, hstatus⟩
  obtain rfl := Option.some.inj (hp.symm.trans hq)
  exact ⟨exists_of_isOk htape, exists_of_isOk hline⟩

/-- The program that is run is that of the configuration, but the record names the bundled one. -/
theorem record_names_sample :
    ∃ config o w', originAt configuredWorld.files (config.text .machineFile) = some o ∧
      o.path = "m.tm" ∧
      Program.ofSource Sample.palindrome = .ok Sample.program ∧
      o.program.table ≠ Sample.program.table ∧
      runIn (Simulate.run ["--config", "c.json", "--input=b"]) configuredWorld =
        (.ok (.exited 0), w') ∧
      ∃ entry, SingleRun.HasAppended ((configuredRun config).journal configuredWorld.clock) entry
          configuredWorld.files ((configuredRun config).made configuredWorld) w'.files ∧
        IsRunRecord ((configuredRun config).ended o.program) "sample" entry ∧
        entry.field? "source" = some (.str "sample") := by
  obtain ⟨config, hasked, hroom, hname, p, hprogram, haction, hstatus⟩ := exists_configuration
  obtain ⟨place, hplace⟩ := Option.isSome_iff_exists.1 hroom.log
  have hleads := Files.Tree.fileAt?_eq_some.1 hplace
  obtain ⟨w', hrun, hfiles⟩ := SingleRun.runIn_run_of_program hasked hroom hprogram hleads
  rw [hstatus, if_pos rfl] at hrun
  refine ⟨config, ⟨config.text .machineFile, p⟩, w', originAt_of_program hprogram, hname,
    Sample.ofSource_palindrome, fun htable => ?_, hrun, _,
    hfiles ▸ SingleRun.hasAppended_of_leadsTo hleads, ⟨_, rfl⟩, rfl⟩
  -- on the same mark the bundled program writes another one
  rw [htable] at haction
  have hwrites := congrArg (Option.map Prod.fst) ((Sample.action?_take .b).symm.trans haction)
  exact absurd hwrites (by decide)

end TapeMachine.Command
