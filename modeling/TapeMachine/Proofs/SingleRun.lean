import TapeMachine.Command.Simulate
import TapeMachine.Proofs.Atomicity
import TapeMachine.Proofs.ConfigChecks
import TapeMachine.Proofs.JournalSessions
import TapeMachine.Proofs.ProgramFiles
import TapeMachine.Proofs.RunRecords
import TapeMachine.Proofs.Switches
import TapeMachine.Proofs.VerdictAgreement

/-!
# Running one input

The simulator that is given an input runs it on the program that the switches or the configuration
name, shows the machine, and appends a record of the run to the journal. Its status tells whether
there was a program, and whether that accepts the input.

## Main results

- `SingleRun.runIn_run_of_reported`: without a program nothing is run, and nothing is recorded
- `SingleRun.runIn_run_of_program`: a program is run, and the run recorded
- `SingleRun.run_status_and_record`: the status and the record for whatever stands in the place of
  the program
-/

namespace TapeMachine.Command

open Session
open Text (Loose)

/-- The configuration says how long the history may be. -/
theorem machineFor_eq {config : Config} (hvalid : config.Valid)
    (hfits : fitsWord (config.int .maxHistory) = true) :
    machineFor config = pure (.ofTable .empty (some (config.int .maxHistory).toNat)) := by
  have hpositive := (Config.valid_iff.1 hvalid).2.1 .maxHistory (by decide)
  have hcapacity : capacity? (some (config.int .maxHistory)) =
      .ok (some (config.int .maxHistory).toNat) := by
    unfold capacity?
    dsimp only
    rw [hfits, if_neg (by decide), if_neg (by omega)]
  unfold machineFor
  rw [hcapacity]
  rfl

/-- What of a machine is shown can be written. -/
structure CanBeShown (config : Config) (m : Machine) : Prop where
  tape : ∃ drawing, m.drawTape (config.int .tapeWindow) = .ok drawing
  line : ∃ line, m.statusLine = .ok line

theorem runIn_showTape {config : Config} {m : Machine} {drawing : Drawing}
    (h : m.drawTape (config.int .tapeWindow) = .ok drawing) (w : World) :
    runIn (showTape config m) w =
      (.ok (), { w with events := w.events.push (.shown (.drawing drawing) false) }) := by
  unfold showTape
  rw [h]
  rfl

theorem runIn_showStatus {m : Machine} {line : Text.Loose} (h : m.statusLine = .ok line)
    (w : World) :
    runIn (showStatus m) w =
      (.ok (), { w with events := w.events.push (.shown (.text line) false) }) := by
  unfold showStatus
  rw [h]
  rfl

/-- A number that can be written has few enough digits to be read again. -/
theorem length_toDigits_of_written {n : Nat} {s : String} (h : Text.Integer.written n = .ok s) :
    (Nat.toDigits 10 n).length ≤ Text.Integer.digitLimit :=
  Text.Integer.isWritable_iff_digits.1 (Text.Integer.written_eq_ok_iff.1 h).1

/-- The status line tells the head and the steps. -/
theorem CanBeShown.length_digits_le {config : Config} {m : Machine} (h : CanBeShown config m)
    (hm : m.headAsTruth = false) :
    (Nat.toDigits 10 m.head).length ≤ Text.Integer.digitLimit ∧
      (Nat.toDigits 10 m.stepCount).length ≤ Text.Integer.digitLimit := by
  obtain ⟨line, hline⟩ := h.line
  unfold Machine.statusLine Machine.headText at hline
  rw [hm, if_neg Bool.false_ne_true] at hline
  obtain ⟨head, hhead, hline⟩ := bind_eq_ok hline
  obtain ⟨steps, hsteps, -⟩ := bind_eq_ok hline
  exact ⟨length_toDigits_of_written hhead, length_toDigits_of_written hsteps⟩

theorem Simulator.runIn_logRun_of_leadsTo {w : World} {j : Journal} {place : Files.Place}
    (h : w.files.LeadsTo (j.path .main) place) (m : Machine) (source : Json) :
    runIn (Simulator.logRun j m source) w = (.ok (), { w with
      files := w.files.appendAt place
        (Journal.lines [Journal.runEntry m source w.clock.next.stamp]).toUTF8,
      clock := w.clock.tick }) := by
  unfold Simulator.logRun
  rw [runIn_bind_of_ok (runIn_readClock w)]
  exact @runIn_writeJournal_of_leadsTo { w with clock := w.clock.tick } _ _ _ h _

/-- The path of the program of a run; the command line goes before the configuration. -/
def Simulate.programPath (config : Config) (file : String) : Loose :=
  if file = "" then config.text .machineFile else file

/-- What a call of the simulator with an input works on. -/
structure SingleRun where
  given : Given
  config : Config
  input : String

namespace SingleRun

open Simulate

/-- The program file on the command line; empty if there is none. -/
def file (r : SingleRun) : String := (r.given.text? "--file").getD ""

/-- The program file, which may be one of the configuration. -/
def programPath (r : SingleRun) : Loose := Simulate.programPath r.config r.file

/-- What stands there. -/
def content (r : SingleRun) (w : World) : Content := .ofName w.files r.programPath

/-- The bound on the steps. -/
def bound (r : SingleRun) : Int := boundOr r.config (r.given.integer? "--max_steps")

/-- The machine that has run a program. -/
def ended (r : SingleRun) (p : Program) : Machine :=
  (((Machine.ofTable p.table (some (r.config.int .maxHistory).toNat)).load r.input).run
    r.bound).machine

/-- The journal; its day is the one that the clock gives next. -/
def journal (r : SingleRun) (clock : Clock) : Journal :=
  ⟨r.config.text .outputDirectory, r.config.text .logPrefix, clock.next.day⟩

/-- The files when the journal is open. -/
def made (r : SingleRun) (w : World) : Files.Tree :=
  (w.files.ensureDirectories (r.config.text .outputDirectory)).1

/-- The record; its moment is the second that the clock gives. -/
def entry (r : SingleRun) (p : Program) (clock : Clock) : Json :=
  Journal.runEntry (r.ended p) (.str (sourceName r.file)) clock.tick.next.stamp

/-- Arguments say what the run works on, but for the input. The configuration is the one in the file
that the arguments name; without such a file it is the default. -/
structure IsCalledBy (r : SingleRun) (args : List String) (w : World) : Prop where
  switches : readArguments manual.switches args = .ok r.given
  config : ∃ path, (r.given.get? "--config" = some (some path) ∨
      r.given.get? "--config" = none ∧ path = Config.defaultPath) ∧
    (w.files.present? (Files.normal path) = .ok true ∧ Config.load w.files path = .ok r.config ∨
      w.files.present? (Files.normal path) = .ok false ∧ r.config = .defaults)

/-- Arguments ask for a run of an input, which is given behind an equals sign. The configuration is
the one in the file that the arguments name; without such a file it is the default. -/
structure IsAskedFor (r : SingleRun) (args : List String) (w : World) : Prop where
  switches : readArguments manual.switches args = .ok r.given
  input : r.input ≠ "--"
  config : ∃ path, (r.given.get? "--config" = some (some path) ∨
      r.given.get? "--config" = none ∧ path = Config.defaultPath) ∧
    (w.files.present? (Files.normal path) = .ok true ∧ Config.load w.files path = .ok r.config ∨
      w.files.present? (Files.normal path) = .ok false ∧ r.config = .defaults)

/-- The system does what is asked of it: the bound on the history is a machine word, the directory
of the journal can be made and the main file in it be opened, and what is shown can be written. -/
structure HasRoom (r : SingleRun) (w : World) : Prop where
  history : fitsWord (r.config.int .maxHistory) = true
  directory : (w.files.ensureDirectories (r.config.text .outputDirectory)).2 = none
  log : ((r.made w).fileAt? ((r.journal w.clock).path .main)).isSome
  shown : ∀ p, (r.content w).program? = some p → CanBeShown r.config (r.ended p)

variable {r : SingleRun} {args : List String} {w : World} {p : Program}

/-! ## The command line -/

/-- The arguments of a call with an input. -/
def withInput (args : List String) (input : String) : List String := args ++ ["--input=" ++ input]

theorem readArguments_withInput {given : Given} (input : String)
    (h : readArguments manual.switches args = .ok given) :
    readArguments manual.switches (withInput args input) =
      .ok (given ++ [("--input", if input = "--" then none else some input)]) := by
  have hattached : Switch.attached
      ⟨"--input", .text, false, "Run this input to completion and exit"⟩ input =
        .ok (if input = "--" then none else some input) := by
    by_cases hinput : input = "--" <;>
      simp [Switch.attached, Takes.value, Takes.allows, hinput]
  have hread := @readArguments_append_attached manual.switches
    ⟨"--input", .text, false, "Run this input to completion and exit"⟩ _ rfl rfl (by decide) input
    _ _ h
  rw [hattached] at hread
  exact hread

theorem IsAskedFor.isCalledBy (h : r.IsAskedFor args w) : r.IsCalledBy args w :=
  ⟨h.switches, h.config⟩

theorem IsCalledBy.valid_config (h : r.IsCalledBy args w) : r.config.Valid := by
  obtain ⟨path, -, ⟨-, hload⟩ | ⟨-, hdefaults⟩⟩ := h.config
  · exact Config.valid_of_load hload
  · rw [hdefaults]
    exact Config.defaults_valid

theorem runIn_configAt {path : String} {config : Config}
    (h : w.files.present? (Files.normal path) = .ok true ∧ Config.load w.files path = .ok config ∨
      w.files.present? (Files.normal path) = .ok false ∧ config = .defaults) :
    runIn (configAt path) w = (.ok config, w) := by
  unfold configAt
  rcases h with ⟨hpresent, hload⟩ | ⟨hpresent, rfl⟩
  · rw [runIn_bind_of_ok (runIn_isPresent hpresent)]
    exact runIn_loadConfig hload
  · rw [runIn_bind_of_ok (runIn_isPresent hpresent)]
    rfl

/-- The input is run; the text `--` is none. -/
theorem IsCalledBy.runIn_run (h : r.IsCalledBy args w) :
    runIn (run (withInput args r.input)) w =
      runIn (.exited <$> runOne r.config r.file (if r.input = "--" then none else some r.input)
        (r.given.integer? "--max_steps")) w := by
  obtain ⟨path, hpath, hconfig⟩ := h.config
  -- the input is given, and hides none of the other switches
  generalize hlast : (if r.input = "--" then none else some r.input) = input
  generalize hgiven : r.given ++ [("--input", input)] = given
  have hget : ∀ {name}, "--input" ≠ name → given.get? name = r.given.get? name := by
    intro name hname
    rw [← hgiven, Given.get?_append, if_neg hname]
  have hinput : given.get? "--input" = some input := by
    rw [← hgiven, Given.get?_append, if_pos rfl]
  have hfile : (given.text? "--file").getD "" = r.file := by
    rw [Given.text?, hget (by decide)]
    rfl
  have hsteps : given.integer? "--max_steps" = r.given.integer? "--max_steps" := by
    rw [Given.integer?, Given.text?, hget (by decide)]
    rfl
  unfold run
  rw [runIn_withArguments (readArguments_withInput r.input h.switches), hlast, hgiven]
  dsimp only
  rw [Given.has, hget (by decide), hinput, hfile, hsteps]
  rcases hpath with hsome | ⟨hnone, rfl⟩
  · have htext : given.text? "--config" = some path := by
      rw [Given.text?, hget (by decide), hsome]
      rfl
    rw [hsome, Option.isSome_some, if_pos rfl, pathOf_eq htext, pure_bind,
      runIn_bind_of_ok (runIn_configAt hconfig)]
  · rw [hnone, Option.isSome_none, if_neg Bool.false_ne_true, pure_bind,
      runIn_bind_of_ok (runIn_configAt hconfig)]

theorem runIn_run (h : r.IsAskedFor args w) :
    runIn (run (withInput args r.input)) w =
      runIn (.exited <$> runOne r.config r.file (some r.input)
        (r.given.integer? "--max_steps")) w := by
  rw [h.isCalledBy.runIn_run, if_neg h.input]

/-! ## The run -/

/-- The machine that gets the program. -/
def fresh (r : SingleRun) : Machine :=
  (Machine.ofTable .empty (some (r.config.int .maxHistory).toNat)).load r.input

/-- If it is reported that there is no program, nothing else is done. -/
theorem runIn_runOne_of_isReported (hvalid : r.config.Valid)
    (hfits : fitsWord (r.config.int .maxHistory) = true) (hnone : (r.content w).program? = none)
    (h : (r.content w).isReported = true) (steps : Option Int) :
    ∃ text, runIn (runOne r.config r.file (some r.input) steps) w =
      (.ok 1, { w with events := w.events.push (.shown (.text (Markup.tagged "red" text)) false) })
      := by
  obtain ⟨e, he⟩ := runIn_compileProgram_of_none r.fresh hnone
  rw [show (Content.ofName w.files r.programPath).isReported = true from h, if_pos rfl] at he
  unfold runOne
  rw [machineFor_eq hvalid hfits, pure_bind]
  refine ⟨"Compile error: " ++ Markup.escape e.message, ?_⟩
  exact (runIn_bind_of_ok he).trans rfl

/-- If it is not reported, the fault ends the session. -/
theorem runIn_runOne_of_not_isReported (hvalid : r.config.Valid)
    (hfits : fitsWord (r.config.int .maxHistory) = true) (hnone : (r.content w).program? = none)
    (h : (r.content w).isReported = false) (steps : Option Int) :
    ∃ e, runIn (runOne r.config r.file (some r.input) steps) w = (.error e, w) := by
  obtain ⟨e, he⟩ := runIn_compileProgram_of_none r.fresh hnone
  rw [show (Content.ofName w.files r.programPath).isReported = false from h,
    if_neg Bool.false_ne_true] at he
  unfold runOne
  rw [machineFor_eq hvalid hfits, pure_bind]
  show ∃ e, runIn (compileProgram r.fresh (programText r.programPath) >>= _) w = _
  rw [runIn_bind, he]
  exact ⟨e, rfl⟩

/-- With a program, what is left is to show the machine that has run it, and to record the run. -/
theorem runIn_runOne_eq (hvalid : r.config.Valid)
    (hfits : fitsWord (r.config.int .maxHistory) = true) (h : (r.content w).program? = some p)
    {input : Option String} (hinput : input.getD "" = r.input) :
    runIn (runOne r.config r.file input (r.given.integer? "--max_steps")) w = runIn (do
      showTape r.config (r.ended p)
      if input.isNone then throw (.noMarkup noValue)
      showStatus (r.ended p)
      let j ← openJournal (r.config.text .outputDirectory) (r.config.text .logPrefix)
      Simulator.logRun j (r.ended p) (.str (sourceName r.file))
      pure (if (r.ended p).status = .accepted then 0 else 2)) w := by
  obtain ⟨source, -, hsource⟩ := program?_ofName_eq_some_iff.1 h
  have hdirections := (Program.isCompiled_of_ofSource hsource).hasDirections
  have hinstall : r.fresh.install p =
      (Machine.ofTable p.table (some (r.config.int .maxHistory).toNat)).load r.input :=
    Machine.install_eq hsource r.fresh
  -- to install the program in a fresh machine gives the machine of the run
  have hended : ((r.fresh.install p).run
      (boundOr r.config (r.given.integer? "--max_steps"))).machine = r.ended p := by
    rw [hinstall]
    rfl
  have hfault : ((r.fresh.install p).run
      (boundOr r.config (r.given.integer? "--max_steps"))).fault = none := by
    rw [hinstall]
    exact (Machine.run_eq_iterate hdirections _).2
  have hcompile := runIn_compileProgram_of_program r.fresh h
  unfold runOne
  rw [machineFor_eq hvalid hfits, pure_bind, hinput]
  show runIn (compileProgram r.fresh (programText r.programPath) >>= _) w = _
  rw [runIn_bind_of_ok hcompile]
  dsimp only
  rw [hfault, hended]

/-- A program is run, and the run is recorded. -/
theorem runIn_runOne_of_program (hvalid : r.config.Valid) (hroom : r.HasRoom w)
    (h : (r.content w).program? = some p)
    {place : Files.Place} (hleads : (r.made w).LeadsTo ((r.journal w.clock).path .main) place) :
    ∃ w', runIn (runOne r.config r.file (some r.input) (r.given.integer? "--max_steps")) w =
        (.ok (if (r.ended p).status = .accepted then 0 else 2), w') ∧
      w'.files =
        (r.made w).appendAt place (Journal.lines [r.entry p w.clock]).toUTF8 := by
  obtain ⟨drawing, hdrawing⟩ := (hroom.shown p h).tape
  obtain ⟨line, hline⟩ := (hroom.shown p h).line
  rw [runIn_runOne_eq hvalid hroom.history h rfl, runIn_bind_of_ok (runIn_showTape hdrawing w),
    Option.isNone_some, if_neg Bool.false_ne_true, runIn_bind_of_ok (runIn_showStatus hline _)]
  dsimp only
  -- what was shown is no matter for the journal
  generalize (w.events.push _).push _ = events
  have hopen := @runIn_openJournal { w with events := events } _ (r.config.text .logPrefix)
    hroom.directory
  rw [runIn_bind_of_ok hopen, runIn_bind_of_ok (Simulator.runIn_logRun_of_leadsTo hleads _ _)]
  exact ⟨_, rfl, rfl⟩

/-! ## The status and the record -/

/-- Without a program nothing is run, and nothing is recorded. -/
theorem runIn_run_of_reported (h : r.IsAskedFor args w) (hroom : r.HasRoom w)
    (hnone : (r.content w).program? = none) (hreported : (r.content w).isReported = true) :
    ∃ w', runIn (run (withInput args r.input)) w = (.ok (.exited 1), w') ∧
      w'.files = w.files := by
  obtain ⟨text, hrun⟩ := runIn_runOne_of_isReported h.isCalledBy.valid_config hroom.history hnone hreported
    (r.given.integer? "--max_steps")
  rw [runIn_run h, map_eq_pure_bind, runIn_bind_of_ok hrun]
  exact ⟨_, rfl, rfl⟩

theorem runIn_run_of_program (h : r.IsAskedFor args w) (hroom : r.HasRoom w)
    (hprogram : (r.content w).program? = some p) {place : Files.Place}
    (hleads : (r.made w).LeadsTo ((r.journal w.clock).path .main) place) :
    ∃ w', runIn (run (withInput args r.input)) w =
        (.ok (.exited (if (r.ended p).status = .accepted then 0 else 2)), w') ∧
      w'.files = (r.made w).appendAt place (Journal.lines [r.entry p w.clock]).toUTF8 := by
  obtain ⟨w', hrun, hfiles⟩ :=
    runIn_runOne_of_program h.isCalledBy.valid_config hroom hprogram hleads
  refine ⟨w', ?_, hfiles⟩
  rw [runIn_run h, map_eq_pure_bind, runIn_bind_of_ok hrun]
  rfl

/-- Where an entry has been appended, and nowhere else has anything been changed. -/
structure HasAppended (j : Journal) (entry : Json) (before opened after : Files.Tree) : Prop where
  received : ∃ place, opened.fileAt? (j.path .main) = some place ∧
    Journal.HasReceived before after place [⟨j.path .main, [entry]⟩]
  untouched : ∀ place, opened.fileAt? (j.path .main) ≠ some place →
    Journal.HasReceived before after place []

theorem hasAppended_of_leadsTo {directory : Loose} {before : Files.Tree} {j : Journal}
    {entry : Json} {place : Files.Place}
    (hleads : (before.ensureDirectories directory).1.LeadsTo (j.path .main) place) :
    HasAppended j entry before (before.ensureDirectories directory).1
      ((before.ensureDirectories directory).1.appendAt place (Journal.lines [entry]).toUTF8) := by
  have hmade := Files.Tree.extends_ensureDirectories before directory
  have hplace := Files.Tree.fileAt?_eq_some.2 hleads
  refine ⟨⟨place, hplace, ?_⟩, fun other hother => ?_⟩
  · apply Journal.hasReceived_of_grown hmade
    rw [hleads.find?_appendAt, if_pos rfl, Journal.grown_cons]
    rfl
  · have hne : other ≠ place := by
      rintro rfl
      exact hother hplace
    apply Journal.hasReceived_of_grown hmade
    rw [hleads.find?_appendAt, if_neg hne]
    rfl

/-- Whatever the program, the evaluator accepts exactly what the machine has accepted. -/
theorem evaluate_eq (r : SingleRun) {files : Files.Tree} {path : Loose}
    (h : (Content.ofName files path).program? = some p) :
    p.table.evaluate r.input r.bound = .ok (r.ended p).verdict := by
  obtain ⟨source, -, hsource⟩ := program?_ofName_eq_some_iff.1 h
  exact Machine.evaluate_eq_verdict (.ofTable p.table (some (r.config.int .maxHistory).toNat))
    (Program.isCompiled_of_ofSource hsource).hasDirections r.input r.bound

theorem headAsTruth_ended (r : SingleRun) (p : Program) : (r.ended p).headAsTruth = false :=
  Machine.headAsTruth_run rfl r.bound

theorem input_ended (r : SingleRun) (p : Program) : (r.ended p).input = r.input :=
  Machine.input_run _ r.bound

theorem readable_entry (hroom : r.HasRoom w) (h : (r.content w).program? = some p) (clock : Clock) :
    (r.entry p clock).Readable Text.Integer.digitLimit Json.depthLimit := by
  obtain ⟨hhead, hsteps⟩ := (hroom.shown p h).length_digits_le (r.headAsTruth_ended p)
  have hwhole : (r.ended p).IsWhole := (Machine.isWhole_load _ r.input).run r.bound
  have hinput : (r.ended p).input.IsWhole := by
    rw [r.input_ended p]
    exact Loose.isWhole_whole r.input
  have hsource : (sourceName r.file).IsWhole := by
    unfold sourceName
    split <;> exact Loose.isWhole_whole _
  exact Journal.readable_runEntry (r.headAsTruth_ended p) hwhole hinput hsource _ hhead hsteps

/-- The status of a run tells whether the machine has accepted. -/
theorem status_cases (status : Status) :
    ((if status = .accepted then 0 else 2) = 0 ↔ status = .accepted) ∧
      (if status = .accepted then 0 else 2) ≠ 1 ∧
      ((if status = .accepted then 0 else 2) = 2 ↔ status ≠ .accepted) := by
  by_cases h : status = .accepted <;> simp [h]

theorem name_eq_accepted_iff {status : Status} :
    some (Json.str status.name) = some (.str "ACCEPTED") ↔ status = .accepted := by
  have hname : Status.accepted.name = "ACCEPTED" := rfl
  constructor
  · intro h
    have hsame : status.name = Status.accepted.name :=
      Loose.whole.inj (Json.str.inj (Option.some.inj h))
    have hof := congrArg Status.ofName? hsame
    rw [Status.ofName?_name, Status.ofName?_name] at hof
    exact Option.some.inj hof
  · rintro rfl
    rw [hname]

/-- The status is 1 if there is no program, and then nothing is recorded. Otherwise it is 0 if the
evaluator accepts the input and 2 if it rejects it, and one record is appended, which can be read
back and tells how the run ended. -/
theorem run_status_and_record (h : r.IsAskedFor args w) (hroom : r.HasRoom w)
    (hcontent : (r.content w).program? = none → (r.content w).isReported = true) :
    ∃ status w', runIn (run (withInput args r.input)) w = (.ok (.exited status), w') ∧
      (status = 1 ↔ (r.content w).program? = none) ∧
      (status = 1 → w'.files = w.files) ∧
      ∀ p, (r.content w).program? = some p →
        (status = 0 ↔ p.table.evaluate r.input r.bound = .ok .accepted) ∧
        (status = 2 ↔ p.table.evaluate r.input r.bound = .ok .rejected) ∧
        ∃ entry, HasAppended (r.journal w.clock) entry w.files (r.made w) w'.files ∧
          Journal.TellsRun entry (r.ended p) ∧
          entry.field? "input" = some (.str r.input) ∧
          (entry.field? "status" = some (.str "ACCEPTED") ↔ status = 0) ∧
          entry.Readable Text.Integer.digitLimit Json.depthLimit := by
  cases hprogram : (r.content w).program? with
  | none =>
    obtain ⟨w', hrun, hfiles⟩ := runIn_run_of_reported h hroom hprogram (hcontent hprogram)
    exact ⟨1, w', hrun, iff_of_true rfl rfl, fun _ => hfiles, nofun⟩
  | some p =>
    obtain ⟨place, hplace⟩ := Option.isSome_iff_exists.1 hroom.log
    have hleads := Files.Tree.fileAt?_eq_some.1 hplace
    obtain ⟨w', hrun, hfiles⟩ := runIn_run_of_program h hroom hprogram hleads
    obtain ⟨hzero, hone, htwo⟩ := status_cases (r.ended p).status
    refine ⟨_, w', hrun, iff_of_false hone nofun, fun heq => absurd heq hone, fun q hq => ?_⟩
    obtain rfl := Option.some.inj hq
    -- the verdict of the evaluator is read off the status in which the machine stands
    have haccepts : p.table.evaluate r.input r.bound = .ok .accepted ↔
        (r.ended p).status = .accepted := by
      rw [r.evaluate_eq hprogram, Except.ok.injEq, Machine.verdict_eq_accepted_iff]
    have hrejects : p.table.evaluate r.input r.bound = .ok .rejected ↔
        (r.ended p).status ≠ .accepted := by
      rw [r.evaluate_eq hprogram, Except.ok.injEq, Machine.verdict_eq_rejected_iff]
    have htells : Journal.TellsRun (r.entry p w.clock) (r.ended p) :=
      Journal.tellsRun_runEntry (r.headAsTruth_ended p) _ _
    refine ⟨hzero.trans haccepts.symm, htwo.trans hrejects.symm, r.entry p w.clock, ?_, htells, ?_,
      ?_, readable_entry hroom hprogram w.clock⟩
    · rw [hfiles]
      exact hasAppended_of_leadsTo hleads
    · rw [htells.input, input_ended]
    · rw [htells.status, hzero]
      exact name_eq_accepted_iff

/-! ## A sample -/

/-- A world with a small program. -/
def sampleWorld : World where
  files := ⟨[(["m.tm"], .file "q0 b/c,R ha".toUTF8)]⟩
  clock := ⟨⟨"2024-01-02", "2024-01-02T03:04:05+00:00"⟩, []⟩
  patience := 0

/-- The run of an input on that program. -/
def sampleRun : SingleRun := ⟨[("--file", some "m.tm")], .defaults, "b"⟩

theorem sampleRun_isAskedFor : sampleRun.IsAskedFor ["--file", "m.tm"] sampleWorld where
  switches := rfl
  input := by decide
  config := ⟨Config.defaultPath, .inr ⟨rfl, rfl⟩, .inr ⟨by decide +kernel, rfl⟩⟩

theorem sampleRun_hasRoom : sampleRun.HasRoom sampleWorld where
  history := by decide +kernel
  directory := rfl
  log := by decide +kernel
  shown := by
    have hall : ((sampleRun.content sampleWorld).program?.all fun p =>
        ((sampleRun.ended p).drawTape (sampleRun.config.int .tapeWindow)).isOk &&
          (sampleRun.ended p).statusLine.isOk) = true := by decide +kernel
    intro p hp
    rw [hp, Option.all_some, Bool.and_eq_true] at hall
    exact ⟨exists_of_isOk hall.1, exists_of_isOk hall.2⟩

/-- The program accepts the input, and one record is appended to a file that was not there. -/
theorem run_status_and_record_sample :
    ∃ w' entry, runIn (run (withInput ["--file", "m.tm"] "b")) sampleWorld =
        (.ok (.exited 0), w') ∧
      w'.files.find? ["logs", "turing_2024-01-02.jsonl"] =
        some (.file (ByteArray.empty ++ (Journal.lines [entry]).toUTF8)) ∧
      entry.field? "input" = some (.str "b") ∧ entry.field? "status" = some (.str "ACCEPTED") := by
  have hsome : (sampleRun.content sampleWorld).program?.isSome = true := by decide +kernel
  obtain ⟨status, w', hrun, -, -, hprogram⟩ :=
    run_status_and_record sampleRun_isAskedFor sampleRun_hasRoom fun hnone => by
      rw [hnone] at hsome
      contradiction
  have haccepts : (sampleRun.content sampleWorld).program?.map
      (fun p => p.table.evaluate sampleRun.input sampleRun.bound) = some (.ok .accepted) := by
    decide +kernel
  obtain ⟨p, hp, hevaluate⟩ := Option.map_eq_some_iff.1 haccepts
  obtain ⟨hzero, -, entry, happended, -, hinput, hstatus, -⟩ := hprogram p hp
  obtain rfl := hzero.2 hevaluate
  obtain ⟨place, hplace, hreceived⟩ := happended.received
  have hwhere : place = [Loose.whole "logs", Loose.whole "turing_2024-01-02.jsonl"] := by
    refine Option.some.inj (hplace.symm.trans ?_)
    decide +kernel
  refine ⟨w', entry, hrun, ?_, hinput, hstatus.2 rfl⟩
  have hbytes := hreceived.appended (List.cons_ne_nil _ _)
  rw [hwhere] at hbytes
  exact hbytes

/-! ## Calls that fail -/

/-- A world with a configuration. -/
def configWorld (config : String) : World where
  files := ⟨[(["c.json"], .file config.toUTF8)]⟩
  clock := sampleWorld.clock
  patience := 0

/-- The input `--` is none, a history longer than a machine word can tell cannot be had, and a path
with a null character in it cannot be passed to the system. Each of them ends the command with a
fault, and nothing is recorded. -/
theorem run_faults :
    EndsInFault (run (withInput ["--file", "m.tm"] "--")) sampleWorld
      "expected string or bytes-like object, got 'list'" ∧
    EndsInFault (run (withInput ["--config", "c.json"] "b"))
      (configWorld "\x7b\"max_history\": 9223372036854775808\x7d")
      "Python int too large to convert to C ssize_t" ∧
    EndsInFault (run (withInput ["--config", "c.json"] "b"))
      (configWorld "\x7b\"machine_file\": \"\\u0000\"\x7d") "embedded null byte" :=
  ⟨endsInFault_of (by decide +kernel), endsInFault_of (by decide +kernel),
    endsInFault_of (by decide +kernel)⟩

end SingleRun

end TapeMachine.Command
