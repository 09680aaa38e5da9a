import TapeMachine.Command.Inspect
import TapeMachine.Proofs.SingleRun
import TapeMachine.Proofs.SuiteCommand

/-!
# Programs that cannot be loaded

Four commands load a program, and each has a list of its own of the faults that it reports. A fault
that is not on the list ends the command. The inspector and the suite look for the program before
they open its file, the simulator does not.

## Main results

- `exists_fault_present`: which contents the inspector and the suite report
- `handles_inspect`, `handles_suite`, `handles_runOne`, `handles_loadMachine`: what the commands do
  for whatever stands in the place of a program
-/

namespace TapeMachine.Command

open Session
open Text (Loose)

/-! ## What is reported -/

/-- Does the inspector report why there is no program? -/
def Content.isReportedByInspector : Content → Bool
  | .unpassable _ | .missing _ => true
  | .refused e => e.lines.all Text.Integer.isWritable
  | .tooLong | .directory | .malformed _ | .program _ => false

/-- Does the suite report why there is no program? -/
def Content.isReportedBySuite : Content → Bool
  | .unpassable _ | .missing _ | .malformed _ | .refused _ => true
  | .tooLong | .directory | .program _ => false

/-- Without a program there is a fault, which is foreseen in the cases that are reported. -/
theorem exists_fault_present {content : Content} (h : content.program? = none) (path : String) :
    ∃ e, content.loadPresent path = .error e ∧
      (e.isMissing || e.isCompile) = content.isReportedByInspector ∧
      Suite.isReported e = content.isReportedBySuite := by
  cases content with
  | unpassable e => exact ⟨_, rfl, rfl, rfl⟩
  | tooLong => exact ⟨_, rfl, rfl, rfl⟩
  | missing cause => exact ⟨_, rfl, rfl, rfl⟩
  | directory => exact ⟨_, rfl, rfl, rfl⟩
  | malformed e => exact ⟨_, rfl, rfl, rfl⟩
  | refused e =>
    refine ⟨.ofCompile e, rfl, ?_, ?_⟩
    · show _ = e.lines.all Text.Integer.isWritable
      unfold Fault.ofCompile
      cases e.lines.all Text.Integer.isWritable <;> rfl
    · show _ = true
      unfold Fault.ofCompile
      cases e.lines.all Text.Integer.isWritable <;> rfl
  | program p => contradiction

/-- Between two worlds something was shown in red. -/
def ShowsError (w w' : World) : Prop :=
  ∃ text, .shown (.text (Markup.tagged "red" text)) false ∈ w'.events.toList.drop w.events.size

theorem showsError_of_append {w w' : World} {later : List Event} {text : Loose}
    (hevents : w'.events.toList = w.events.toList ++ later)
    (hlater : .shown (.text (Markup.tagged "red" text)) false ∈ later) : ShowsError w w' := by
  have hsize : w.events.size = w.events.toList.length := (Array.length_toList ..).symm
  refine ⟨text, ?_⟩
  rwa [hevents, hsize, List.drop_left]

/-- What a command does for whatever stands in the place of a program. It reports some contents, in
red, and then ends with `refusal`; it goes on with a program; everything else ends it with a fault.
Without a program the files stay as they are. -/
structure Handles {α : Type} (content : Content) (reported : Bool) (s : Session α) (w : World)
    (refusal : α) (success : Program → α → Prop) : Prop where
  reports : content.program? = none → reported = true →
    ∃ w', runIn s w = (.ok refusal, w') ∧ ShowsError w w' ∧ w'.files = w.files
  goesOn : ∀ p, content.program? = some p → ∃ a w', runIn s w = (.ok a, w') ∧ success p a
  throws : content.program? = none → reported = false →
    ∃ e w', runIn s w = (.error e, w') ∧ w'.files = w.files

/-! ## The inspector -/

namespace Inspect

theorem exists_runIn_showProgram (p : Program) {given : Given}
    (h : (given.text? "--output").getD "" = "") (w : World) :
    ∃ w', runIn (showProgram p given) w = (.ok (), w') := by
  unfold showProgram
  split
  · exact ⟨_, rfl⟩
  · exact ⟨_, rfl⟩
  · dsimp only
    rw [if_pos h]
    exact ⟨_, rfl⟩

end Inspect

theorem handles_inspect {args : List String} {given : Given} {path : String} (w : World)
    (hargs : readArguments Inspect.manual.switches args = .ok given)
    (hpath : given.text? "--file" = some path) (houtput : (given.text? "--output").getD "" = "") :
    Handles (.ofPath w.files (Files.normal path))
      (Content.ofPath w.files (Files.normal path)).isReportedByInspector (Inspect.run args) w
      (.returned 1) fun _ ending => ending = .returned 0 := by
  have hload := runIn_attempt_eq (runIn_loadProgram_eq path w) fun e => e.isMissing || e.isCompile
  unfold Inspect.run
  -- a fault that is reported, a program, and a fault that is passed on
  refine ⟨fun hnone hreported => ?_, fun p hp => ?_, fun hnone hreported => ?_⟩
  all_goals rw [runIn_withArguments hargs, pathOf_eq hpath, pure_bind]
  · obtain ⟨e, he, hexpected, -⟩ := exists_fault_present hnone (Files.normal path)
    rw [he, attempted, hexpected, hreported, if_pos rfl] at hload
    rw [runIn_bind_of_ok hload]
    refine ⟨_, rfl, ?_, rfl⟩
    exact showsError_of_append (Array.toList_push ..) List.mem_cons_self
  · rw [eq_program_of_program? hp] at hload
    rw [runIn_bind_of_ok hload]
    obtain ⟨w', hshow⟩ := Inspect.exists_runIn_showProgram p houtput w
    dsimp only
    rw [runIn_bind_of_ok hshow]
    exact ⟨_, _, rfl, rfl⟩
  · obtain ⟨e, he, hexpected, -⟩ := exists_fault_present hnone (Files.normal path)
    rw [he, attempted, hexpected, hreported, if_neg Bool.false_ne_true] at hload
    rw [runIn_bind, hload]
    exact ⟨e, w, rfl, rfl⟩

/-! ## The suite -/

namespace Suite

open TapeMachine.Suite

/-- A call of the suite with the default configuration, a program file, and inputs that can be
read. -/
structure IsCalled (args : List String) (given : Given) (path : String) (inputs : List String)
    (w : World) : Prop where
  switches : readArguments manual.switches args = .ok given
  config : given.get? "--config" = none
  program : given.text? "--file" = some path
  inputs : ∃ inputsPath text, given.text? "--inputs" = some inputsPath ∧
    w.files.readText inputsPath = .ok text ∧ inputs = Text.lines text

/-- The default journal can be opened, with a file for each channel. -/
structure HasDefaultJournal (w : World) : Prop where
  directory : (w.files.ensureDirectories (Config.defaults.text .outputDirectory)).2 = none
  files : ∀ channel, ((w.files.ensureDirectories (Config.defaults.text .outputDirectory)).1.fileAt?
    (Journal.path ⟨Config.defaults.text .outputDirectory, Config.defaults.text .logPrefix,
      w.clock.tick.next.day⟩ channel)).isSome

variable {args : List String} {given : Given} {path : String} {inputs : List String} {w : World}

theorem IsCalled.runIn_load (h : IsCalled args given path inputs w) :
    runIn (load given) w =
      (((Content.ofPath w.files (Files.normal path)).loadPresent (Files.normal path)).map fun p =>
        (Config.defaults, p, inputs), w) := by
  obtain ⟨inputsPath, text, hinputsPath, htext, rfl⟩ := h.inputs
  unfold load
  rw [h.config, pathOf_eq h.program, pathOf_eq hinputsPath]
  simp only [pure_bind]
  rw [runIn_bind, runIn_loadProgram_eq]
  cases (Content.ofPath w.files (Files.normal path)).loadPresent (Files.normal path) with
  | error e => rfl
  | ok p =>
    dsimp only
    rw [runIn_bind_of_ok (runIn_loadInputs htext)]
    rfl

theorem exists_runIn_runLoaded {program : Program} (h : program.table.HasDirections)
    (given : Given) (inputs : List String) (hjournal : HasDefaultJournal w) :
    ∃ w', runIn (runLoaded given .defaults program inputs) w = (.ok (), w') := by
  choose place hplace using fun channel => Option.isSome_iff_exists.1 (hjournal.files channel)
  obtain ⟨events, hrun⟩ := runIn_runLoaded_of_leadsTo given h inputs hjournal.directory
    fun channel => Files.Tree.fileAt?_eq_some.1 (hplace channel)
  rw [hrun]
  cases hjson : given.has "--json" with
  | true => exact ⟨_, runIn_showCases_of_json hjson _ _⟩
  | false => exact ⟨_, runIn_showCases_of_not_json hjson _ _⟩

theorem IsCalled.handles (h : IsCalled args given path inputs w)
    (hjournal : HasDefaultJournal w) :
    Handles (.ofPath w.files (Files.normal path))
      (Content.ofPath w.files (Files.normal path)).isReportedBySuite (run args) w
      (.returned 1) fun _ ending => ending = .returned 0 := by
  have hload := runIn_attempt_eq h.runIn_load isReported
  unfold run
  -- a fault that is reported, a program, and a fault that is passed on
  refine ⟨fun hnone hreported => ?_, fun p hp => ?_, fun hnone hreported => ?_⟩
  all_goals rw [runIn_withArguments h.switches]
  · obtain ⟨e, he, -, hexpected⟩ := exists_fault_present hnone (Files.normal path)
    rw [he, Except.map, attempted, hexpected, hreported, if_pos rfl] at hload
    rw [runIn_bind_of_ok hload]
    refine ⟨_, rfl, ?_, rfl⟩
    exact showsError_of_append (Array.toList_push ..) List.mem_cons_self
  · obtain ⟨source, hsource⟩ := exists_source_of_ofPath hp
    rw [eq_program_of_program? hp] at hload
    rw [runIn_bind_of_ok hload]
    obtain ⟨w', hrun⟩ := exists_runIn_runLoaded
      (Program.isCompiled_of_ofSource hsource).hasDirections given inputs hjournal
    dsimp only
    rw [runIn_bind_of_ok hrun]
    exact ⟨_, _, rfl, rfl⟩
  · obtain ⟨e, he, -, hexpected⟩ := exists_fault_present hnone (Files.normal path)
    rw [he, Except.map, attempted, hexpected, hreported, if_neg Bool.false_ne_true] at hload
    rw [runIn_bind, hload]
    exact ⟨e, w, rfl, rfl⟩

end Suite

/-! ## The simulator -/

/-- With an input, the simulator ends with the status 1 if it reports that there is no program. -/
theorem SingleRun.handles {r : SingleRun} {w : World} (hvalid : r.config.Valid)
    (hroom : r.HasRoom w) :
    Handles (r.content w) (r.content w).isReported
      (Simulate.runOne r.config r.file (some r.input) (r.given.integer? "--max_steps")) w 1
      fun p status => status = if (r.ended p).status = .accepted then 0 else 2 := by
  refine ⟨fun hnone hreported => ?_, fun p hp => ?_, fun hnone hreported => ?_⟩
  · obtain ⟨text, hrun⟩ := runIn_runOne_of_isReported hvalid hroom.history hnone hreported
      (r.given.integer? "--max_steps")
    exact ⟨_, hrun, showsError_of_append (Array.toList_push ..) List.mem_cons_self, rfl⟩
  · obtain ⟨place, hplace⟩ := Option.isSome_iff_exists.1 hroom.log
    obtain ⟨w', hrun, -⟩ :=
      runIn_runOne_of_program hvalid hroom hp (Files.Tree.fileAt?_eq_some.1 hplace)
    exact ⟨_, w', hrun, rfl⟩
  · obtain ⟨e, hrun⟩ := runIn_runOne_of_not_isReported hvalid hroom.history hnone hreported
      (r.given.integer? "--max_steps")
    exact ⟨e, w, hrun, rfl⟩

/-- In the menu, the simulator is what it was if it reports that there is no program. -/
theorem Simulator.handles_loadMachine (s : Simulator) {w : World} {answer : Json} {rest : List Json}
    {path : Loose} (hanswers : w.answers = answer :: rest)
    (hpath : answerOr ((s.config.value? .machineFile).getD (.str "")) answer = .str path) :
    Handles (.ofName w.files path) (Content.ofName w.files path).isReported s.loadMachine w s
      fun p s' => s'.machine = s.machine.install p := by
  obtain ⟨w₁, hask, hfiles, hevents⟩ := exists_runIn_ask
    ⟨.text, "Machine file (empty for the palindrome sample)",
      (s.config.value? .machineFile).getD (.str ""), []⟩ hanswers
  dsimp only at hask
  rw [hpath] at hask
  rw [← hfiles]
  unfold Simulator.loadMachine
  refine ⟨fun hnone hreported => ?_, fun p hp => ?_, fun hnone hreported => ?_⟩
  all_goals rw [runIn_bind_of_ok hask, show programNamed (.str path) = programText path from rfl]
  · obtain ⟨e, he⟩ := runIn_compileProgram_of_none s.machine hnone
    rw [hreported, if_pos rfl] at he
    rw [runIn_bind_of_ok he]
    refine ⟨_, rfl, ⟨"Could not load machine: " ++ Markup.escape e.message, ?_⟩, hfiles⟩
    -- the question, the error, and that the old machine is kept
    have hsize : w.events.size = w.events.toList.length := (Array.length_toList ..).symm
    show _ ∈ ((w₁.events.push _).push _).toList.drop _
    rw [Array.toList_push, Array.toList_push, hevents, Array.toList_push, hsize, List.append_assoc,
      List.append_assoc, List.drop_left]
    simp
  · rw [runIn_bind_of_ok (runIn_compileProgram_of_program s.machine hp)]
    exact ⟨_, _, rfl, rfl⟩
  · obtain ⟨e, he⟩ := runIn_compileProgram_of_none s.machine hnone
    rw [hreported, if_neg Bool.false_ne_true] at he
    rw [runIn_bind, he]
    exact ⟨e, w₁, rfl, hfiles⟩

/-! ## All commands -/

/-- Each command reports a program that cannot be loaded, or ends with a fault, and which of them
depends on the command and on what stands in the place of the program. -/
theorem unloadable_reported_or_thrown (w : World) :
    (∀ (args : List String) (given : Given) (path : String),
      readArguments Inspect.manual.switches args = .ok given →
      given.text? "--file" = some path → (given.text? "--output").getD "" = "" →
      Handles (.ofPath w.files (Files.normal path))
        (Content.ofPath w.files (Files.normal path)).isReportedByInspector (Inspect.run args) w
        (.returned 1) fun _ ending => ending = .returned 0) ∧
    (∀ (args : List String) (given : Given) (path : String) (inputs : List String),
      Suite.IsCalled args given path inputs w → Suite.HasDefaultJournal w →
      Handles (.ofPath w.files (Files.normal path))
        (Content.ofPath w.files (Files.normal path)).isReportedBySuite (Suite.run args) w
        (.returned 1) fun _ ending => ending = .returned 0) ∧
    (∀ r : SingleRun, r.config.Valid → r.HasRoom w →
      Handles (r.content w) (r.content w).isReported
        (Simulate.runOne r.config r.file (some r.input) (r.given.integer? "--max_steps")) w 1
        fun p status => status = if (r.ended p).status = .accepted then 0 else 2) ∧
    ∀ (s : Simulator) (answer : Json) (rest : List Json) (path : Loose),
      w.answers = answer :: rest →
      answerOr ((s.config.value? .machineFile).getD (.str "")) answer = .str path →
      Handles (.ofName w.files path) (Content.ofName w.files path).isReported s.loadMachine w s
        fun p s' => s'.machine = s.machine.install p :=
  ⟨fun _ _ _ hargs hpath houtput => handles_inspect w hargs hpath houtput,
    fun _ _ _ _ hcalled hjournal => hcalled.handles hjournal,
    fun _ hvalid hroom => SingleRun.handles hvalid hroom,
    fun s _ _ _ hanswers hpath => s.handles_loadMachine hanswers hpath⟩

/-- A directory, a file that holds no text, and a file of inputs. -/
def faultWorld : World where
  files := ⟨[(["d"], .directory), (["m.tm"], .file ⟨#[0x71, 0x30, 0x20, 0x61, 0xff]⟩),
    (["in.txt"], .file "a\n".toUTF8)]⟩
  answers := [.str "m.tm"]
  clock := ⟨⟨"2024-01-02", "2024-01-02T03:04:05+00:00"⟩, []⟩
  patience := 0

/-- A simulator without a program. -/
def faultSimulator : Simulator where
  machine := .ofTable .empty none
  config := .defaults
  configPath := "c.json"
  journal := ⟨"logs/", "turing_", "2024-01-02"⟩
  inputs := []

/-- A run of an input on the directory. -/
def faultRun : SingleRun := ⟨[("--file", some "d")], .defaults, "b"⟩

theorem faultRun_hasRoom : faultRun.HasRoom faultWorld where
  history := by decide +kernel
  directory := rfl
  log := by decide +kernel
  shown := by
    have hnone : (faultRun.content faultWorld).program? = none := by decide +kernel
    rw [hnone]
    nofun

/-- The inspector and the suite end with a fault on the directory, and the simulator reports it. -/
theorem unloadable_reported_or_thrown_directory :
    (∃ e w', runIn (Inspect.run ["--file", "d"]) faultWorld = (.error e, w') ∧
      w'.files = faultWorld.files) ∧
    (∃ e w', runIn (Suite.run ["--file", "d", "--inputs", "in.txt"]) faultWorld = (.error e, w') ∧
      w'.files = faultWorld.files) ∧
    (∃ w', runIn (Simulate.runOne .defaults "d" (some "b") none) faultWorld = (.ok 1, w') ∧
      ShowsError faultWorld w' ∧ w'.files = faultWorld.files) ∧
    ∃ w', runIn faultSimulator.loadMachine { faultWorld with answers := [.str "d"] } =
        (.ok faultSimulator, w') ∧
      ShowsError { faultWorld with answers := [.str "d"] } w' ∧ w'.files = faultWorld.files := by
  obtain ⟨hinspect, hsuite, hrun, -⟩ := unloadable_reported_or_thrown faultWorld
  obtain ⟨-, -, -, hload⟩ :=
    unloadable_reported_or_thrown { faultWorld with answers := [.str "d"] }
  have hcalled : Suite.IsCalled ["--file", "d", "--inputs", "in.txt"]
      [("--file", some "d"), ("--inputs", some "in.txt")] "d" ["a"] faultWorld :=
    ⟨rfl, rfl, rfl, "in.txt", "a\n", rfl, rfl, by decide⟩
  have hjournal : Suite.HasDefaultJournal faultWorld :=
    ⟨rfl, by rintro (_ | _ | _) <;> decide +kernel⟩
  exact ⟨
    (hinspect ["--file", "d"] [("--file", some "d")] "d" rfl rfl rfl).throws
      (by decide +kernel) (by decide +kernel),
    (hsuite _ _ _ _ hcalled hjournal).throws (by decide +kernel) (by decide +kernel),
    (hrun faultRun Config.defaults_valid faultRun_hasRoom).reports (by decide +kernel)
      (by decide +kernel),
    (hload faultSimulator _ _ _ rfl rfl).reports (by decide +kernel) (by decide +kernel)⟩

/-- The directory is reported by the simulator alone, and the file without a text by the suite. -/
theorem unloadable_thrown :
    EndsInFault (Inspect.run ["--file", "d"]) faultWorld "[Errno 21] Is a directory: 'd'" ∧
    EndsInFault (Suite.run ["--file", "d", "--inputs", "in.txt"]) faultWorld
      "[Errno 21] Is a directory: 'd'" ∧
    EndsInFault (Inspect.run ["--file", "m.tm"]) faultWorld
      "'utf-8' codec can't decode byte 0xff in position 4: invalid start byte" ∧
    EndsInFault (Simulate.run ["--file", "m.tm", "--input", "b"]) faultWorld
      "'utf-8' codec can't decode byte 0xff in position 4: invalid start byte" ∧
    EndsInFault faultSimulator.loadMachine faultWorld
      "'utf-8' codec can't decode byte 0xff in position 4: invalid start byte" :=
  ⟨endsInFault_of (by decide +kernel), endsInFault_of (by decide +kernel),
    endsInFault_of (by decide +kernel), endsInFault_of (by decide +kernel),
    endsInFault_of (by decide +kernel)⟩

end TapeMachine.Command
