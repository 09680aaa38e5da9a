import TapeMachine.Command.Suite
import TapeMachine.Proofs.CompiledTable
import TapeMachine.Proofs.JournalChannels
import TapeMachine.Proofs.JournalSessions
import TapeMachine.Proofs.ProgramFiles
import TapeMachine.Proofs.SuiteBatches

/-!
# A suite from the command line

The command is followed from its arguments to its journal: the files that it reads, the batches that
it runs, the files that it writes to, and the lines that it prints. `Job` is what a call asks for.

## Main results

- `Job.IsLoadedBy.runIn_run`: what is called for is loaded, and then run
- `Job.run_returned_printed_recorded`: every input has one verdict, on one line of the output and on
  one line of the journal
-/

namespace TapeMachine

namespace Suite

/-! ## Verdicts -/

/-- Cases are inputs with their numbers and with the verdicts of the evaluator, and each of them is
either accepted or rejected. -/
structure AreVerdicts (table : Table) (bound : Int) (inputs : List String) (cases : List Case) :
    Prop where
  inputs : cases.map (·.input) = inputs
  ids : ∀ k (h : k < cases.length), cases[k].id = k + 1
  evaluated : ∀ c ∈ cases, table.evaluate c.input bound = .ok c.status
  decided : ∀ c ∈ cases, c.status = .accepted ∨ c.status = .rejected
  parted : (cases.filter (·.status == .accepted) ++ cases.filter (·.status == .rejected)).Perm cases

variable {cases : List Case}

theorem areVerdicts_decided {table : Table} (h : table.HasDirections) (bound : Int)
    (inputs : List String) : AreVerdicts table bound inputs (decided table bound 0 inputs) := by
  have hdecided : ∀ c ∈ decided table bound 0 inputs,
      c.status = Status.ofVerdict (table.accepts bound c.input) := by
    intro c hc
    obtain ⟨p, -, rfl⟩ := List.mem_map.1 hc
    rfl
  have hstatus : ∀ c ∈ decided table bound 0 inputs,
      c.status = .accepted ∨ c.status = .rejected := by
    intro c hc
    rw [hdecided c hc]
    cases table.accepts bound c.input
    · exact .inr rfl
    · exact .inl rfl
  refine ⟨?_, fun k hk => ?_, fun c hc => ?_, hstatus, ?_⟩
  · rw [decided, List.map_map]
    exact List.zipIdx_map_fst 0 inputs
  · simp [decided]
  · rw [hdecided c hc, Table.evaluate_eq h]
    -- what is not accepted is rejected, so the two lists part the cases
  · have hrejected : (decided table bound 0 inputs).filter (·.status == .rejected) =
        (decided table bound 0 inputs).filter fun c => !(c.status == .accepted) := by
      refine List.filter_congr fun c hc => ?_
      rcases hstatus c hc with hcase | hcase <;> rw [hcase] <;> rfl
    rw [hrejected]
    exact List.filter_append_perm _ _

/-- No number is greater than the number of cases. -/
theorem natAbs_id_le (h : ∀ k (h : k < cases.length), cases[k].id = k + 1) :
    ∀ c ∈ cases, c.id.natAbs ≤ cases.length := by
  intro c hc
  obtain ⟨k, hk, rfl⟩ := List.getElem_of_mem hc
  rw [h k hk]
  omega

end Suite

/-! ## What is loaded -/

/-- A configuration is loaded if what its file holds can be laid over the defaults, and then nothing
is wrong. -/
theorem Config.load_of_readText {tree : Files.Tree} {path text : String} {value : Json}
    {config : Config}
    (hexists : tree.exists? path = true) (htext : tree.readText path = .ok text)
    (hread : Json.read text = .ok value) (hoverlay : Config.defaults.overlay value = .ok config)
    (hvalid : config.fault? = none) : Config.load tree path = .ok config := by
  have hcheck : config.check = .ok config := by rw [Config.check, hvalid]
  unfold Config.load Config.ofText
  rw [hexists, htext]
  simp only [Bool.not_true, Bool.false_eq_true, if_false, Except.mapError, hread, hoverlay, hcheck,
    bind, Except.bind]

namespace Command

open Session
open Text (Loose)

theorem return_not_mem_join {inputs : List String}
    (h : ∀ input ∈ inputs, ∀ c ∈ input.toList, Text.isLineBreak c = false) :
    '\r' ∉ (String.join (inputs.map (· ++ "\n"))).toList := by
  intro hmem
  rw [String.toList_join] at hmem
  obtain ⟨line, hline, hc⟩ := List.mem_flatMap.1 hmem
  obtain ⟨input, hinput, rfl⟩ := List.mem_map.1 hline
  rw [String.toList_append] at hc
  rcases List.mem_append.1 hc with hc | hc
  · exact absurd (h input hinput _ hc) (by decide)
  · exact absurd hc (by decide)

/-- Zero is no bound on the steps. -/
theorem boundOr_some (config : Config) (n : Int) :
    boundOr config (some n) = if n = 0 then config.int .maxBatchSteps else n := by
  unfold boundOr
  split
  · contradiction
  · rename_i heq
    rw [Option.some.inj heq, if_pos rfl]
  · rename_i hzero heq
    obtain rfl := Option.some.inj heq
    rw [if_neg fun hn => hzero (by rw [hn])]

/-- A program is loaded if its file holds a text that compiles. -/
theorem runIn_loadProgram {path source : String} {program : Program} {w : World}
    (hread : w.files.readText (Files.normal path) = .ok source)
    (hsource : Program.ofSource source = .ok program) :
    runIn (loadProgram path) w = (.ok program, w) := by
  unfold loadProgram
  dsimp only
  rw [runIn_bind, runIn_isPresent (Files.Tree.present?_of_readText hread)]
  dsimp only
  rw [Bool.not_true, if_neg Bool.false_ne_true, runIn_bind, runIn_readText hread]
  dsimp only
  rw [hsource]
  rfl

namespace Suite

open TapeMachine.Suite

/-! ## Inputs -/

/-- The lines of a file are inputs. -/
theorem runIn_loadInputs {path text : String} {w : World} (h : w.files.readText path = .ok text) :
    runIn (loadInputs path) w = (.ok (Text.lines text), w) := by
  unfold loadInputs
  rw [runIn_bind_of_ok (runIn_readText h)]
  rfl

/-! ## Lines and entries -/

/-- The entries that a channel gets: the cases with its verdict, or one summary of all of them. -/
def entriesFor (program stamp : String) (cases : List Case) : Journal.Channel → List Json
  | .accepted => (cases.filter (·.status == .accepted)).map (Journal.caseEntry program stamp)
  | .rejected => (cases.filter (·.status == .rejected)).map (Journal.caseEntry program stamp)
  | .main =>
    [.obj [("machine", .str program), ("timestamp", .str stamp), ("total", .int cases.length),
      ("accepted", .int (cases.filter (·.status == .accepted)).length),
      ("rejected", .int (cases.filter (·.status == .rejected)).length), ("idle", .int 0)]]

/-- The channels in the order in which a suite is recorded. -/
def channels : List Journal.Channel := [.accepted, .rejected, .main]

section

variable {cases : List Case}

/-- A suite that was run has no other cases. -/
theorem summaryFields_eq (h : ∀ c ∈ cases, c.status = .accepted ∨ c.status = .rejected) :
    Journal.summaryFields (summarize cases) =
      ([("total", .int cases.length),
        ("accepted", .int (cases.filter (·.status == .accepted)).length),
        ("rejected", .int (cases.filter (·.status == .rejected)).length), ("idle", .int 0)]
          : Json.Fields) := by
  -- the evaluator leaves no case idle, running or paused
  have hzero : ∀ status, status ≠ .accepted → status ≠ .rejected → count cases status = 0 := by
    intro status haccepted hrejected
    rw [count, List.countP_eq_zero]
    intro c hc hstatus
    rcases h c hc with hcase | hcase
    · exact haccepted (by rw [← beq_iff_eq.1 hstatus, hcase])
    · exact hrejected (by rw [← beq_iff_eq.1 hstatus, hcase])
  have hidle := hzero .idle nofun nofun
  have hrunning := hzero .running nofun nofun
  have hpaused := hzero .paused nofun nofun
  rw [Journal.summaryFields, summarize, hidle, hrunning, hpaused, count, count,
    List.countP_eq_length_filter, List.countP_eq_length_filter]
  rfl

/-- Cases are recorded channel by channel. -/
theorem runIn_logCases_eq (j : Journal) (program : String) (w : World)
    (h : ∀ c ∈ cases, c.status = .accepted ∨ c.status = .rejected) :
    runIn (logCases j program cases) w = runIn (do
      forM channels fun channel =>
        writeJournal j channel (entriesFor program w.clock.next.stamp cases channel)
      pure (summarize cases)) { w with clock := w.clock.tick } := by
  -- the clock is read once, before the first channel is written to
  have hentries : logCases j program cases = (do
      let now ← readClock
      forM channels fun channel =>
        writeJournal j channel (entriesFor program now.stamp cases channel)
      pure (summarize cases)) := by
    unfold logCases
    dsimp only
    rw [summaryFields_eq h]
    simp only [channels, List.forM_cons, List.forM_nil, bind_assoc, pure_bind]
    rfl
  rw [hentries, runIn_bind_of_ok (runIn_readClock w)]

/-- The value on the line of a case. -/
def caseValue (c : Case) : Json :=
  .obj [("id", .int c.id), ("input", .str c.input), ("status", .str c.status.name)]

theorem caseLine_eq (c : Case) : caseLine c = (caseValue c).compact := rfl

variable {digitLimit depth : Nat}

/-- What is written about cases can be read back, if a number may have as many digits as the number
of cases has. -/
theorem readable_caseValue {c : Case}
    (h : (Nat.toDigits 10 c.id.natAbs).length ≤ digitLimit) :
    (caseValue c).Readable digitLimit (depth + 1) := by
  refine @Json.Readable.ofNames _ _ [("id", .int c.id), ("input", .str c.input),
    ("status", .str c.status.name)] (show ["id", "input", "status"].Nodup by decide) ?_
  simp only [List.forall_mem_cons]
  exact ⟨.int h, .str (Json.settled_whole _), .str (Json.settled_whole _), nofun⟩

theorem readable_caseEntry {c : Case} (program stamp : String)
    (h : (Nat.toDigits 10 c.id.natAbs).length ≤ digitLimit) :
    (Journal.caseEntry program stamp c).Readable digitLimit (depth + 1) := by
  refine @Json.Readable.ofNames _ _ [("machine", .str program), ("id", .int c.id),
    ("input", .str c.input), ("status", .str c.status.name), ("timestamp", .str stamp)]
    (show ["machine", "id", "input", "status", "timestamp"].Nodup by decide) ?_
  simp only [List.forall_mem_cons]
  exact ⟨.str (Json.settled_whole _), .int h, .str (Json.settled_whole _),
    .str (Json.settled_whole _), .str (Json.settled_whole _), nofun⟩

theorem readable_entriesFor (program stamp : String)
    (hids : ∀ c ∈ cases, c.id.natAbs ≤ cases.length)
    (hdigits : (Nat.toDigits 10 cases.length).length ≤ digitLimit) (channel : Journal.Channel) :
    ∀ e ∈ entriesFor program stamp cases channel, e.Readable digitLimit (depth + 1) := by
  have hint : ∀ {n : Nat}, n ≤ cases.length → (Json.int n).Readable digitLimit depth :=
    fun hn => .int ((Json.length_toDigits_le hn).trans hdigits)
  have hentry : ∀ c ∈ cases, (Journal.caseEntry program stamp c).Readable digitLimit (depth + 1) :=
    fun c hc =>
      readable_caseEntry program stamp ((Json.length_toDigits_le (hids c hc)).trans hdigits)
  cases channel with
  | accepted =>
    exact List.forall_mem_map.2 fun c hc => hentry c (List.mem_of_mem_filter hc)
  | rejected =>
    exact List.forall_mem_map.2 fun c hc => hentry c (List.mem_of_mem_filter hc)
  | main =>
    rw [entriesFor, List.forall_mem_singleton]
    refine @Json.Readable.ofNames _ _ [("machine", .str program), ("timestamp", .str stamp),
      ("total", .int cases.length),
      ("accepted", .int (cases.filter (·.status == .accepted)).length),
      ("rejected", .int (cases.filter (·.status == .rejected)).length), ("idle", .int 0)]
      (show ["machine", "timestamp", "total", "accepted", "rejected", "idle"].Nodup by decide) ?_
    simp only [List.forall_mem_cons]
    exact ⟨.str (Json.settled_whole _), .str (Json.settled_whole _), hint (Nat.le_refl _),
      hint (List.length_filter_le _ _), hint (List.length_filter_le _ _), hint (Nat.zero_le _),
      nofun⟩

/-- Batches of a positive size come to the cases of all inputs together, and the progress bar is told
of each of them. -/
theorem runIn_runInputs_of_pos {table : Table} (h : table.HasDirections) (inputs : List String)
    (bound : Int) (visible : Bool) {size : Int} (hsize : 1 ≤ size) (w : World) :
    runIn (runInputs table inputs bound visible size) w =
      (.ok (decided table bound 0 inputs), { w with
        events := w.events ++ (.progress visible :: .task "[cyan]Evaluating..." inputs.length
          :: ((pieces size.toNat inputs).map List.length).map .advanced).toArray }) := by
  have hbatches : batches size inputs = .ok (pieces size.toNat inputs) := by
    rw [batches, if_neg (by omega), if_neg (by omega)]
  have hcases : runBatches table bound (pieces size.toNat inputs) =
      .ok (decided table bound 0 inputs) := by
    rw [runBatches, runBatchesFrom_eq h, flatten_pieces (by omega)]
  unfold runInputs
  rw [runIn_bind_of_ok (runIn_emit _ w), runIn_bind_of_ok (runIn_emit _ _), hbatches,
    runIn_bind_of_ok (runIn_ofResult_ok _ _ _), hcases, runIn_bind_of_ok (runIn_ofResult_ok _ _ _),
    runIn_bind_of_ok (runIn_emitAll (fun batch : List String => .advanced batch.length) _ _),
    runIn_pure]
  simp [Function.comp_def]

/-- All inputs are decided; the rest of the world does not notice but for the progress bar. -/
theorem runIn_runInputs {table : Table} (h : table.HasDirections) (inputs : List String)
    (bound : Int) (visible : Bool) (w : World) :
    ∃ events, runIn (runInputs table inputs bound visible defaultBatchSize) w =
      (.ok (decided table bound 0 inputs), { w with events := events }) :=
  ⟨_, runIn_runInputs_of_pos h inputs bound visible (by decide) w⟩

/-- When all inputs are decided, the cases are recorded in a journal that is opened then, and shown. -/
theorem runIn_runLoaded_eq (given : Given) {config : Config} {program : Program}
    (h : program.table.HasDirections) (inputs : List String) {w : World}
    (hmade : (w.files.ensureDirectories (config.text .outputDirectory)).2 = none) :
    let cases := decided program.table (boundOr config (given.integer? "--max_steps")) 0 inputs
    ∃ events, runIn (runLoaded given config program inputs) w =
      runIn (do
        let summary ← logCases
          ⟨config.text .outputDirectory, config.text .logPrefix, w.clock.tick.next.day⟩
          ((given.text? "--file").getD "") cases
        if given.has "--json" then
          for c in cases do
            writeLine (caseLine c)
        else do
          draw (results cases)
          say (summaryText summary))
        { w with
          files := (w.files.ensureDirectories (config.text .outputDirectory)).1,
          clock := w.clock.tick.tick, events := events } := by
  intro cases
  obtain ⟨events, hcases⟩ := runIn_runInputs h inputs
    (boundOr config (given.integer? "--max_steps")) (!given.has "--json") w
  refine ⟨events, ?_⟩
  unfold runLoaded
  dsimp only
  rw [runIn_bind_of_ok hcases]
  -- the clock is read when the journal is opened, and again when it is rotated
  refine (runIn_bind_of_ok (@runIn_openJournal { w with events := events } _ _ hmade)).trans ?_
  exact runIn_bind_of_ok (runIn_rotateJournal _ _)

/-- What is shown of cases: a line of JSON for each of them, or a table and a line that sums them
up. -/
def showCases (given : Given) (cases : List Case) : Session Unit :=
  if given.has "--json" then
    for c in cases do
      writeLine (caseLine c)
  else do
    draw (results cases)
    say (summaryText (summarize cases))

theorem runIn_showCases_of_json {given : Given} (h : given.has "--json" = true)
    (cases : List Case) (w : World) :
    runIn (showCases given cases) w = (.ok (),
      { w with
        output := w.output ++ (cases.map fun c => Loose.whole (caseLine c)).toArray }) := by
  unfold showCases
  rw [h, if_pos rfl, runIn_bind_of_ok (runIn_writeLines _ _ _)]
  rfl

theorem runIn_showCases_of_not_json {given : Given} (h : given.has "--json" = false)
    (cases : List Case) (w : World) :
    runIn (showCases given cases) w = (.ok (),
      { w with
        events := (w.events.push (.shown (.drawing (results cases)) false)).push
          (.shown (.text (summaryText (summarize cases))) false) }) := by
  unfold showCases
  rw [h, if_neg Bool.false_ne_true]
  rfl

/-- Then the cases are recorded channel by channel, and shown. -/
theorem runIn_runLoaded_recording (given : Given) {config : Config} {program : Program}
    (h : program.table.HasDirections) (inputs : List String) {w : World}
    (hmade : (w.files.ensureDirectories (config.text .outputDirectory)).2 = none) :
    let cases := decided program.table (boundOr config (given.integer? "--max_steps")) 0 inputs
    ∃ events, runIn (runLoaded given config program inputs) w =
      runIn (do
        forM channels fun channel => writeJournal
          ⟨config.text .outputDirectory, config.text .logPrefix, w.clock.tick.next.day⟩ channel
          (entriesFor ((given.text? "--file").getD "") w.clock.tick.tick.next.stamp cases channel)
        showCases given cases)
        { w with
          files := (w.files.ensureDirectories (config.text .outputDirectory)).1,
          clock := w.clock.tick.tick.tick, events := events } := by
  intro cases
  obtain ⟨events, hrun⟩ := runIn_runLoaded_eq given h inputs hmade
  refine ⟨events, ?_⟩
  rw [hrun, runIn_bind, runIn_logCases_eq _ _ _ (areVerdicts_decided h _ _).decided, runIn_bind,
    runIn_bind]
  dsimp only
  cases runIn (forM channels _) _ with
  | mk r w' => cases r <;> rfl

/-- When the files of the journal can be opened too, the cases are recorded in them and shown. -/
theorem runIn_runLoaded_of_leadsTo (given : Given) {config : Config} {program : Program}
    (h : program.table.HasDirections) (inputs : List String) {w : World}
    (hmade : (w.files.ensureDirectories (config.text .outputDirectory)).2 = none)
    {place : Journal.Channel → Files.Place}
    (hleads : ∀ channel, (w.files.ensureDirectories (config.text .outputDirectory)).1.LeadsTo
      (Journal.path ⟨config.text .outputDirectory, config.text .logPrefix,
        w.clock.tick.next.day⟩ channel) (place channel)) :
    let cases := decided program.table (boundOr config (given.integer? "--max_steps")) 0 inputs
    ∃ events, runIn (runLoaded given config program inputs) w =
      runIn (showCases given cases)
        { w with
          files := Journal.recordIn place (entriesFor ((given.text? "--file").getD "")
            w.clock.tick.tick.next.stamp cases)
              (w.files.ensureDirectories (config.text .outputDirectory)).1 channels,
          clock := w.clock.tick.tick.tick, events := events } := by
  intro cases
  obtain ⟨events, hrun⟩ := runIn_runLoaded_recording given h inputs hmade
  refine ⟨events, ?_⟩
  rw [hrun, runIn_bind_of_ok (Journal.runIn_writeAll hleads channels)]

/-- If a file of the journal cannot be opened, the command ends with a fault. -/
theorem runIn_runLoaded_of_none (given : Given) {config : Config} {program : Program}
    (h : program.table.HasDirections) (inputs : List String) {w : World}
    (hmade : (w.files.ensureDirectories (config.text .outputDirectory)).2 = none)
    {channel : Journal.Channel}
    (hnone : (w.files.ensureDirectories (config.text .outputDirectory)).1.fileAt?
      (Journal.path ⟨config.text .outputDirectory, config.text .logPrefix,
        w.clock.tick.next.day⟩ channel) = none) :
    ∃ e w', runIn (runLoaded given config program inputs) w = (.error (.file e), w') := by
  obtain ⟨events, hrun⟩ := runIn_runLoaded_recording given h inputs hmade
  obtain ⟨e, w', hwrite⟩ := @Journal.runIn_writeAll_of_none _
    (entriesFor ((given.text? "--file").getD "") w.clock.tick.tick.next.stamp
      (decided program.table (boundOr config (given.integer? "--max_steps")) 0 inputs))
    { w with
      files := (w.files.ensureDirectories (config.text .outputDirectory)).1,
      clock := w.clock.tick.tick.tick, events := events }
    channel hnone channels (by cases channel <;> decide)
  refine ⟨e, w', ?_⟩
  rw [hrun, runIn_bind, hwrite]

end

/-! ## What a call asks for -/

/-- What a call of the command works on. -/
structure Job where
  given : Given
  config : Config
  program : Program
  inputs : List String

namespace Job

/-- The bound on the steps for an input. -/
def bound (job : Job) : Int :=
  (job.given.integer? "--max_steps").getD (job.config.int .maxBatchSteps)

/-- How the program is named in the journal. -/
def programName (job : Job) : String := (job.given.text? "--file").getD ""

/-- The journal; its day is the one that the clock gives second. -/
def journal (job : Job) (clock : Clock) : Journal :=
  ⟨job.config.text .outputDirectory, job.config.text .logPrefix, clock.tick.next.day⟩

/-- The arguments of a call, and the files that they name, ask for a job whose verdicts are written
as JSON. The inputs stand in their file one on a line. -/
structure IsAskedFor (job : Job) (args : List String) (w : World) : Prop where
  switches : readArguments manual.switches args = .ok job.given
  json : job.given.has "--json" = true
  bound : job.given.integer? "--max_steps" ≠ some 0
  config : (job.given.get? "--config" = none ∧ job.config = .defaults) ∨
    ∃ path, job.given.get? "--config" = some (some path) ∧
      Config.load w.files path = .ok job.config
  program : ∃ path source, job.given.text? "--file" = some path ∧
    w.files.readText (Files.normal path) = .ok source ∧ Program.ofSource source = .ok job.program
  inputs : ∃ path, job.given.text? "--inputs" = some path ∧
    w.files.readBytes path = .ok (String.join (job.inputs.map (· ++ "\n"))).toUTF8
  onOneLine : ∀ input ∈ job.inputs, ∀ c ∈ input.toList, Text.isLineBreak c = false

/-- The directory of the journal can be made, and its prefix makes names of files in it that those
of the other channels do not have. -/
structure HasJournal (job : Job) (w : World) : Prop where
  noSlash : Files.slash ∉ (job.config.text .logPrefix).points
  ne_accepted : job.config.text .logPrefix ≠ "accepted_"
  ne_rejected : job.config.text .logPrefix ≠ "rejected_"
  directory : (w.files.ensureDirectories (job.config.text .outputDirectory)).2 = none
  day : '/' ∉ w.clock.tick.next.day.toList

/-- The files when the journal is open. -/
def made (job : Job) (w : World) : Files.Tree :=
  (w.files.ensureDirectories (job.config.text .outputDirectory)).1

/-- The cases with their verdicts. -/
def cases (job : Job) : List Case := decided job.program.table job.bound 0 job.inputs

variable {job : Job} {args : List String} {w : World}

/-- Arguments, and the files that they name, make up a job. Its inputs are the lines of their file. -/
structure IsLoadedBy (job : Job) (args : List String) (w : World) : Prop where
  switches : readArguments manual.switches args = .ok job.given
  config : (job.given.get? "--config" = none ∧ job.config = .defaults) ∨
    ∃ path, job.given.get? "--config" = some (some path) ∧
      Config.load w.files path = .ok job.config
  program : ∃ path source, job.given.text? "--file" = some path ∧
    w.files.readText (Files.normal path) = .ok source ∧ Program.ofSource source = .ok job.program
  inputs : ∃ path text, job.given.text? "--inputs" = some path ∧
    w.files.readText path = .ok text ∧ job.inputs = Text.lines text

/-- Inputs without a line break come back as they were written, one a line. -/
theorem IsAskedFor.isLoadedBy (h : job.IsAskedFor args w) : job.IsLoadedBy args w := by
  obtain ⟨path, hpath, hbytes⟩ := h.inputs
  refine ⟨h.switches, h.config, h.program, path, _, hpath,
    Files.Tree.readText_of_readBytes hbytes (return_not_mem_join h.onOneLine), ?_⟩
  rw [Text.lines_join h.onOneLine]

namespace IsLoadedBy

theorem hasDirections (h : job.IsLoadedBy args w) : job.program.table.HasDirections := by
  obtain ⟨-, source, -, -, hsource⟩ := h.program
  exact (Program.isCompiled_of_ofSource hsource).hasDirections

theorem runIn_load (h : job.IsLoadedBy args w) :
    runIn (load job.given) w = (.ok (job.config, job.program, job.inputs), w) := by
  obtain ⟨path, source, hpath, hread, hsource⟩ := h.program
  obtain ⟨inputsPath, text, hinputsPath, htext, hlines⟩ := h.inputs
  -- the program and the inputs are the same whatever configuration is loaded
  have hrest : ∀ config : Config, runIn (do
      let program ← loadProgram path
      let inputs ← loadInputs inputsPath
      pure (config, program, inputs)) w = (.ok (config, job.program, job.inputs), w) := by
    intro config
    rw [runIn_bind_of_ok (runIn_loadProgram hread hsource),
      runIn_bind_of_ok (runIn_loadInputs htext), hlines]
    rfl
  unfold load
  simp only [pathOf_eq hpath, pathOf_eq hinputsPath, pure_bind]
  rcases h.config with ⟨hnone, hconfig⟩ | ⟨configPath, hsome, hconfig⟩
  · rw [hnone, hconfig]
    exact hrest Config.defaults
  · rw [hsome]
    dsimp only
    rw [runIn_bind_of_ok (runIn_loadConfig hconfig)]
    exact hrest job.config

/-- What is called for is loaded, and then run. -/
theorem runIn_run (h : job.IsLoadedBy args w) :
    runIn (run args) w = runIn (do
      runLoaded job.given job.config job.program job.inputs
      pure (.returned 0)) w := by
  unfold run
  rw [runIn_withArguments h.switches, runIn_bind, runIn_attempt, h.runIn_load]

end IsLoadedBy

/-- The bound is the one that is used, since it is not zero. -/
theorem boundOr_eq_bound (h : job.IsAskedFor args w) :
    boundOr job.config (job.given.integer? "--max_steps") = job.bound := by
  unfold bound
  cases hsteps : job.given.integer? "--max_steps" with
  | none => rfl
  | some n =>
    have hn : n ≠ 0 := fun hzero => h.bound (by rw [hsteps, hzero])
    rw [boundOr_some, if_neg hn]
    rfl

/-! ## What comes of it -/

/-- Lines of JSON that hold cases, one each. -/
structure ArePrinted (digitLimit : Nat) (cases : List Case) (lines : List String) : Prop where
  unbroken : ∀ line ∈ lines, ∀ c ∈ line.toList, Text.isLineBreak c = false
  values : lines.map (fun line => Json.readWithin digitLimit Json.depthLimit line.toList) =
    cases.map fun c => .ok (caseValue c)

/-- What has become of the files when a journal got entries: behind what the file of a channel held
stand the lines of its entries, which can be read back, and no other file is changed. The paths lead
where they led when the journal had been opened. -/
structure AreRecorded (digitLimit : Nat) (j : Journal) (entries : Journal.Channel → List Json)
    (before opened after : Files.Tree) : Prop where
  received : ∀ channel, ∃ place, opened.fileAt? (j.path channel) = some place ∧
    Journal.HasReceived before after place [⟨j.path channel, entries channel⟩]
  untouched : ∀ place, (∀ channel, opened.fileAt? (j.path channel) ≠ some place) →
    Journal.HasReceived before after place []
  readable : ∀ channel, ∀ e ∈ entries channel, e.Readable digitLimit Json.depthLimit

/-- The entries that the channels get. The moment is the one that the clock gives third. -/
def entries (job : Job) (clock : Clock) : Journal.Channel → List Json :=
  entriesFor job.programName clock.tick.tick.next.stamp job.cases

variable {digitLimit : Nat}

theorem areVerdicts_cases (h : job.IsAskedFor args w) :
    AreVerdicts job.program.table job.bound job.inputs job.cases :=
  areVerdicts_decided h.isLoadedBy.hasDirections _ _

theorem length_cases (h : job.IsAskedFor args w) : job.cases.length = job.inputs.length := by
  rw [← (areVerdicts_cases h).inputs, List.length_map]

/-- A line of its own tells each case. -/
theorem arePrinted_map_caseLine {cases : List Case}
    (hids : ∀ k (h : k < cases.length), cases[k].id = k + 1)
    (hdigits : (Nat.toDigits 10 cases.length).length ≤ digitLimit) :
    ArePrinted digitLimit cases (cases.map caseLine) := by
  have hreadable : ∀ c ∈ cases, (caseValue c).Readable digitLimit Json.depthLimit := fun c hc =>
    readable_caseValue ((Json.length_toDigits_le (natAbs_id_le hids c hc)).trans hdigits)
  refine ⟨?_, ?_⟩
  · rw [List.forall_mem_map]
    exact fun c hc => (hreadable c hc).isLineBreak_eq_false
  · rw [List.map_map]
    refine List.map_congr_left fun c hc => ?_
    rw [Function.comp_apply, caseLine_eq, Json.readWithin_compact (hreadable c hc)]

theorem arePrinted_caseLine (h : job.IsAskedFor args w)
    (hdigits : (Nat.toDigits 10 job.inputs.length).length ≤ digitLimit) :
    ArePrinted digitLimit job.cases (job.cases.map caseLine) := by
  rw [← length_cases h] at hdigits
  exact arePrinted_map_caseLine (areVerdicts_cases h).ids hdigits

/-- When the files of a journal can be opened, the cases of a job are recorded and printed. -/
theorem runIn_run_eq (h : job.IsAskedFor args w) (hjournal : job.HasJournal w)
    {place : Journal.Channel → Files.Place}
    (hleads : ∀ channel,
      (job.made w).LeadsTo ((job.journal w.clock).path channel) (place channel)) :
    ∃ w', runIn (run args) w = (.ok (.returned 0), w') ∧
      w'.files = Journal.recordIn place (job.entries w.clock) (job.made w) channels ∧
      w'.output = w.output ++ (job.cases.map fun c => Loose.whole (caseLine c)).toArray := by
  obtain ⟨events, hrun⟩ := runIn_runLoaded_of_leadsTo job.given h.isLoadedBy.hasDirections
    job.inputs hjournal.directory hleads
  rw [boundOr_eq_bound h] at hrun
  rw [h.isLoadedBy.runIn_run, runIn_bind, hrun, runIn_showCases_of_json h.json]
  exact ⟨_, rfl, rfl, rfl⟩

theorem areRecorded (h : job.IsAskedFor args w) (hjournal : job.HasJournal w)
    (hdigits : (Nat.toDigits 10 job.inputs.length).length ≤ digitLimit)
    {place : Journal.Channel → Files.Place}
    (hleads : ∀ channel,
      (job.made w).LeadsTo ((job.journal w.clock).path channel) (place channel)) :
    AreRecorded digitLimit (job.journal w.clock) (job.entries w.clock) w.files (job.made w)
      (Journal.recordIn place (job.entries w.clock) (job.made w) channels) := by
  have hmade : w.files.Extends (job.made w) := Files.Tree.extends_ensureDirectories _ _
  -- no channel writes to the file of another, so each file gets one piece
  have hinj := Journal.place_injective hjournal.noSlash hjournal.ne_accepted hjournal.ne_rejected
    hjournal.day hleads
  have hids : ∀ c ∈ job.cases, c.id.natAbs ≤ job.cases.length :=
    natAbs_id_le (areVerdicts_cases h).ids
  refine ⟨fun channel => ⟨place channel, Files.Tree.fileAt?_eq_some.2 (hleads channel), ?_⟩,
    fun other hother => ?_, fun channel => ?_⟩
  · refine Journal.hasReceived_of_grown hmade ?_
    rw [Journal.find?_recordIn hleads hinj (by decide) (by cases channel <;> decide),
      Journal.grown_cons]
    rfl
  · refine Journal.hasReceived_of_grown hmade ?_
    exact Journal.find?_recordIn_of_ne hleads fun channel _ heq =>
      hother channel (heq ▸ Files.Tree.fileAt?_eq_some.2 (hleads channel))
  · refine readable_entriesFor _ _ hids ?_ channel
    rwa [length_cases h]

/-- The command succeeds, prints every case on a line of its own, and appends every case to the file
of its verdict and one summary to the main file. -/
theorem run_returned_printed_recorded (h : job.IsAskedFor args w) (hjournal : job.HasJournal w)
    (hfiles : ∀ channel, ((job.made w).fileAt? ((job.journal w.clock).path channel)).isSome)
    (hdigits : (Nat.toDigits 10 job.inputs.length).length ≤ digitLimit) :
    ∃ w' cases lines,
      runIn (run args) w = (.ok (.returned 0), w') ∧
      AreVerdicts job.program.table job.bound job.inputs cases ∧
      ArePrinted digitLimit cases lines ∧
      w'.output = w.output ++ (lines.map Loose.whole).toArray ∧
      AreRecorded digitLimit (job.journal w.clock)
        (entriesFor job.programName w.clock.tick.tick.next.stamp cases) w.files (job.made w)
        w'.files := by
  -- the places of the files, channel by channel
  choose place hplace using fun channel => Option.isSome_iff_exists.1 (hfiles channel)
  have hleads := fun channel => Files.Tree.fileAt?_eq_some.1 (hplace channel)
  obtain ⟨w', hrun, htree, houtput⟩ := runIn_run_eq h hjournal hleads
  refine ⟨w', job.cases, job.cases.map caseLine, hrun, areVerdicts_cases h,
    arePrinted_caseLine h hdigits, ?_, ?_⟩
  · rw [houtput, List.map_map]
    rfl
  · rw [htree]
    exact areRecorded h hjournal hdigits hleads

/-! ## A sample -/

/-- A call that runs the inputs of a file. -/
def sampleArgs : List String :=
  ["--file", "m.tm", "--inputs", "in.txt", "--config", "c.json", "--json"]

/-- The text of a configuration that sets the prefix of the journal's main files. -/
def sampleConfig (logPrefix : String) : String :=
  (Json.obj [("log_file_prefix", .str logPrefix)]).compact

/-- A configuration, two inputs, and a program. -/
def sampleFiles (config : ByteArray) : Files.Tree :=
  ⟨[(["c.json"], .file config), (["in.txt"], .file "\na\n".toUTF8),
    (["m.tm"], .file "q0 a/a,S ha".toUTF8)]⟩

/-- A world with these files. -/
def sampleWorld (logPrefix : String) : World where
  files := sampleFiles (sampleConfig logPrefix).toUTF8
  clock := ⟨⟨"2024-01-02", "2024-01-02T03:04:05+00:00"⟩, []⟩
  patience := 0

/-- The job that the call asks for. -/
def sampleJob (logPrefix : String) (program : Program) : Job where
  given := [("--file", some "m.tm"), ("--inputs", some "in.txt"), ("--config", some "c.json"),
    ("--json", none)]
  config := Config.defaults.set .logPrefix (.str logPrefix)
  program := program
  inputs := ["", "a"]

theorem load_sampleConfig (logPrefix : String) :
    Config.load (sampleWorld logPrefix).files "c.json" =
      .ok (Config.defaults.set .logPrefix (.str logPrefix)) := by
  have hreadable : (Json.obj [("log_file_prefix", .str logPrefix)]).Readable
      Text.Integer.digitLimit Json.depthLimit := by
    refine @Json.Readable.ofNames _ _ [("log_file_prefix", .str logPrefix)]
      (show ["log_file_prefix"].Nodup by decide) ?_
    rw [List.forall_mem_singleton]
    exact .str (Json.settled_whole logPrefix)
  -- a carriage return would be read as a line feed
  have hreturn : '\r' ∉ (sampleConfig logPrefix).toList := fun hmem =>
    absurd (hreadable.isLineBreak_eq_false _ hmem) (by decide)
  have hbytes : ∀ bytes, (sampleFiles bytes).readBytes "c.json" = .ok bytes := fun _ => rfl
  have htext : (sampleWorld logPrefix).files.readText "c.json" = .ok (sampleConfig logPrefix) :=
    Files.Tree.readText_of_readBytes (hbytes _) hreturn
  have hread : Json.read (sampleConfig logPrefix) =
      .ok (.obj [("log_file_prefix", .str logPrefix)]) := by
    rw [Json.read, Json.readWhole, sampleConfig, Json.readWithin_compact hreadable]
  have hexists : ∀ bytes, (sampleFiles bytes).exists? "c.json" = true := fun _ => rfl
  have hoverlay : Config.defaults.overlay (.obj [("log_file_prefix", .str logPrefix)]) =
      .ok (Config.defaults.set .logPrefix (.str logPrefix)) := by
    show Except.ok (Config.putAll _ _) = _
    rw [Config.putAll_eq_foldl]
    rfl
  exact Config.load_of_readText (hexists _) htext hread hoverlay rfl

theorem exists_isAskedFor (logPrefix : String) :
    ∃ program, (sampleJob logPrefix program).IsAskedFor sampleArgs (sampleWorld logPrefix) := by
  cases hsource : Program.ofSource "q0 a/a,S ha" with
  | error e =>
    have hok : (Program.ofSource "q0 a/a,S ha").isOk = true := by decide +kernel
    rw [hsource] at hok
    contradiction
  | ok program =>
    refine ⟨program, ?_⟩
    exact {
      switches := rfl
      json := rfl
      bound := nofun
      config := .inr ⟨"c.json", rfl, load_sampleConfig logPrefix⟩
      program := ⟨"m.tm", "q0 a/a,S ha", rfl, rfl, hsource⟩
      inputs := ⟨"in.txt", rfl, rfl⟩
      onOneLine := show ∀ input ∈ ["", "a"], ∀ c ∈ input.toList, Text.isLineBreak c = false by
        simpa using (by decide : Text.isLineBreak 'a' = false) }

theorem hasJournal_sample {logPrefix : String} (program : Program)
    (hslash : '/' ∉ logPrefix.toList) (haccepted : logPrefix ≠ "accepted_")
    (hrejected : logPrefix ≠ "rejected_") :
    (sampleJob logPrefix program).HasJournal (sampleWorld logPrefix) := by
  have hmade : ∀ bytes, ((sampleFiles bytes).ensureDirectories "logs/").2 = none := fun _ => rfl
  have htext : (sampleJob logPrefix program).config.text .logPrefix = logPrefix := rfl
  refine ⟨?_, ?_, ?_, hmade _, show '/' ∉ "2024-01-02".toList by decide⟩
  · rw [htext]
    simpa [Loose.points, Files.slash] using hslash
  · rw [htext]
    exact fun heq => haccepted (Loose.whole.inj heq)
  · rw [htext]
    exact fun heq => hrejected (Loose.whole.inj heq)

/-- The files of the sample when the journal is open. -/
def sampleMade : Files.Tree :=
  ((sampleFiles (sampleConfig "run_").toUTF8).ensureDirectories "logs/").1

/-- Two inputs give two lines, and the file for accepted cases is there. -/
theorem run_returned_printed_recorded_sample :
    ∃ w', runIn (run sampleArgs) (sampleWorld "run_") = (.ok (.returned 0), w') ∧
      w'.output.size = 2 ∧
      ∃ bytes, w'.files.find? ["logs", "accepted_2024-01-02.jsonl"] = some (.file bytes) := by
  obtain ⟨program, h⟩ := exists_isAskedFor "run_"
  have hfiles : ∀ channel,
      (sampleMade.fileAt? (Journal.path ⟨"logs/", "run_", "2024-01-02"⟩ channel)).isSome := by
    rintro (_ | _ | _) <;> decide +kernel
  obtain ⟨w', cases, lines, hrun, hverdicts, hprinted, houtput, hrecorded⟩ :=
    run_returned_printed_recorded h
      (hasJournal_sample program (by decide) (by decide) (by decide)) hfiles (Nat.le_refl _)
  have hcases : cases.length = 2 := by
    have hinputs := congrArg List.length hverdicts.inputs
    rwa [List.length_map] at hinputs
  have hlines := congrArg List.length hprinted.values
  rw [List.length_map, List.length_map, hcases] at hlines
  obtain ⟨place, hplace, hreceived⟩ := hrecorded.received .accepted
  have hwhere : place = [Loose.whole "logs", Loose.whole "accepted_2024-01-02.jsonl"] := by
    refine Option.some.inj (hplace.symm.trans ?_)
    show sampleMade.fileAt? (Journal.path ⟨"logs/", "run_", "2024-01-02"⟩ .accepted) = _
    decide +kernel
  refine ⟨w', hrun, ?_, _, hwhere ▸ hreceived.appended (List.cons_ne_nil _ _)⟩
  have hempty : (sampleWorld "run_").output = #[] := rfl
  rw [houtput, hempty]
  simp [hlines]

/-! ## Files that cannot be opened -/

/-- If the file of a channel cannot be opened the command ends with a fault. -/
theorem run_faults_of_none (h : job.IsAskedFor args w) (hjournal : job.HasJournal w)
    {channel : Journal.Channel}
    (hnone : (job.made w).fileAt? ((job.journal w.clock).path channel) = none) :
    ∃ e w', runIn (run args) w = (.error (.file e), w') := by
  obtain ⟨e, w', hrun⟩ := runIn_runLoaded_of_none job.given h.isLoadedBy.hasDirections job.inputs
    hjournal.directory hnone
  refine ⟨e, w', ?_⟩
  rw [h.isLoadedBy.runIn_run, runIn_bind, hrun]

/-- With a prefix that is too long for a name the command ends with a fault. -/
theorem run_faults_of_long_prefix :
    ∃ job : Job, job.config = Config.defaults.set .logPrefix (.str (Journal.letters 300)) ∧
      job.IsAskedFor sampleArgs (sampleWorld (Journal.letters 300)) ∧
      job.HasJournal (sampleWorld (Journal.letters 300)) ∧
      ∃ e w', runIn (run sampleArgs) (sampleWorld (Journal.letters 300)) =
        (.error (.file e), w') := by
  obtain ⟨program, h⟩ := exists_isAskedFor (Journal.letters 300)
  have hletters : ∀ c ∈ (Journal.letters 300).toList, c = 'a' := by
    intro c hc
    rw [Journal.letters, String.toList_ofList] at hc
    exact List.eq_of_mem_replicate hc
  have hne : ∀ {s : String}, '_' ∈ s.toList → Journal.letters 300 ≠ s := by
    rintro s hs rfl
    exact absurd (hletters _ hs) (by decide)
  have hjournal := hasJournal_sample program (fun hmem => absurd (hletters _ hmem) (by decide))
    (hne (by decide : '_' ∈ "accepted_".toList)) (hne (by decide : '_' ∈ "rejected_".toList))
  have hpath : ∀ logPrefix,
      ((sampleJob logPrefix program).journal (sampleWorld logPrefix).clock).path .main =
        Files.join "logs/" (Loose.whole logPrefix ++ Loose.whole ("2024-01-02" ++ ".jsonl")) :=
    fun _ => rfl
  refine ⟨_, rfl, h, hjournal, @run_faults_of_none _ _ _ h hjournal .main ?_⟩
  rw [hpath]
  exact Journal.fileAt?_letters (by decide) "logs/" "2024-01-02" _ (by decide)

end Job

end Suite

end Command

end TapeMachine
