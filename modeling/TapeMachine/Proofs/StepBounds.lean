import TapeMachine.Proofs.JsonNumbers
import TapeMachine.Proofs.SingleRun
import TapeMachine.Proofs.SuiteCommand

/-!
# Step bounds from the command line

The suite and the simulator take a bound on the steps from the command line. Any integer can be
given there that can be written at all, and it goes before the bound of the configuration. Only zero
does not: both commands take it for a switch that was not given, and run as many steps as the
configuration allows.

## Main results

- `Text.Integer.read?_toString`: what is written of an integer is read as that integer
- `readArguments_withBound`: every bound that can be written can be given
- `Suite.Job.evaluatesWithin_boundOr`: a suite is evaluated within the bound
- `SingleRun.runsWithin_boundOr`: an input is run within the bound
- `given_bound_used`: the bound that is given, unless it is zero
-/

namespace TapeMachine

/-! ## Integers -/

namespace Text.Integer

open Json (isDigit decimalValue)

theorem digitValue?_of_isDigit {c : Char} (h : isDigit c = true) :
    digitValue? c = some (c.toNat - 48) := by
  simp only [isDigit, Bool.and_eq_true, decide_eq_true_eq] at h
  have hzero : (decide (0x30 ≤ c.toNat) && decide (c.toNat < 0x30 + 10)) = true := by
    rw [Bool.and_eq_true, decide_eq_true_eq, decide_eq_true_eq]
    omega
  have hfind : zeros.find? (fun z => z ≤ c.toNat && c.toNat < z + 10) = some 0x30 :=
    List.find?_cons_of_pos hzero
  rw [digitValue?, hfind]
  rfl

theorem digits?_of_isDigit {cs : List Char} (hne : cs ≠ []) (h : ∀ c ∈ cs, isDigit c = true) :
    digits? cs = some (cs.map (·.toNat - 48)) := by
  induction cs with
  | nil => exact absurd rfl hne
  | cons c cs ih =>
    rw [List.forall_mem_cons] at h
    have hc := digitValue?_of_isDigit h.1
    cases cs with
    | nil => rw [digits?, hc, Option.map_some, List.map_singleton]
    | cons d rest =>
      have hd : d ≠ '_' := by
        rintro rfl
        exact absurd (h.2 '_' List.mem_cons_self) (by decide)
      rw [digits?, hc, ih (List.cons_ne_nil d rest) h.2]
      · rfl
      · exact nofun
      · rintro _ _ heq
        exact hd (List.cons.inj heq).1

theorem value_map_digits (cs : List Char) :
    value (cs.map (·.toNat - 48)) = decimalValue cs := by
  rw [value, List.foldl_map, decimalValue]

/-- A number is read from its digits if they are not too many. -/
theorem natural?_toDigits (n : Nat) :
    natural? (Nat.toDigits 10 n) = if isWritable n then some n else none := by
  have hdigits := digits?_of_isDigit (Nat.toDigits_ne_nil (b := 10) (n := n))
    fun c hc => Json.isDigit_of_mem_toDigits hc
  unfold natural?
  rw [hdigits]
  dsimp only
  rw [value_map_digits, Json.decimalValue_toDigits, List.length_map]
  exact if_congr (@isWritable_iff_digits n).symm rfl rfl

/-- No white space is around what is written of an integer. -/
theorem isMargin_of_mem_intChars {n : Int} {c : Char} (h : c ∈ Json.intChars n) :
    isMargin c = false := by
  have hc : c = '-' ∨ isDigit c = true := by
    unfold Json.intChars at h
    split at h
    · exact (List.mem_cons.1 h).imp_right Json.isDigit_of_mem_toDigits
    · exact .inr (Json.isDigit_of_mem_toDigits h)
  have hrange : 45 ≤ c.toNat ∧ c.toNat ≤ 57 := by
    rcases hc with rfl | hc
    · decide
    · simp only [isDigit, Bool.and_eq_true, decide_eq_true_eq] at hc
      omega
  have hblank : ∀ k ≤ 57, 45 ≤ k → inRanges blankRanges k = false := by decide
  rw [isMargin, isBlank, hblank _ hrange.2 hrange.1, Bool.false_and]

theorem dropWhile_isMargin {cs : List Char} (h : ∀ c ∈ cs, isMargin c = false) :
    cs.dropWhile isMargin = cs := by
  cases cs with
  | nil => rfl
  | cons c cs => rw [List.dropWhile_cons_of_neg (by rw [h c List.mem_cons_self]; exact nofun)]

theorem toList_toString (n : Int) : (toString n).toList = Json.intChars n := by
  cases n with
  | ofNat n =>
    rw [Json.intChars, if_neg (by simp)]
    exact Nat.toList_repr
  | negSucc n =>
    rw [Json.intChars, if_pos (Int.negSucc_lt_zero n)]
    show ("-" ++ Nat.repr (n + 1)).toList = _
    rw [String.toList_append, Nat.toList_repr]
    rfl

/-- Nothing is trimmed off what is written of an integer. -/
theorem trimmed_toString (n : Int) :
    (((toString n).toList.dropWhile isMargin).reverse.dropWhile isMargin).reverse =
      Json.intChars n := by
  have hmargin : ∀ c ∈ Json.intChars n, isMargin c = false := fun c hc =>
    isMargin_of_mem_intChars hc
  rw [toList_toString, dropWhile_isMargin hmargin,
    dropWhile_isMargin fun c hc => hmargin c (List.mem_reverse.1 hc), List.reverse_reverse]

/-- An integer is read from what is written of it; if it cannot be written, nothing is read. -/
theorem read?_toString (n : Int) :
    read? (toString n) = if isWritable n then some n else none := by
  have hwritable : isWritable n = isWritable (n.natAbs : Int) := by
    rw [isWritable, isWritable, Int.natAbs_natCast]
  unfold read?
  dsimp only
  rw [trimmed_toString, hwritable]
  unfold Json.intChars
  by_cases hneg : n < 0
  · have habs : -(n.natAbs : Int) = n := by omega
    rw [if_pos hneg]
    show ((natural? (Nat.toDigits 10 n.natAbs) >>= fun a => pure (a : Int)).map fun k => -k) = _
    rw [natural?_toDigits]
    cases isWritable n.natAbs with
    | true => exact congrArg some habs
    | false => rfl
  · have habs : (n.natAbs : Int) = n := by omega
    have hnatural := natural?_toDigits n.natAbs
    obtain ⟨d, ds, hdigits, hd⟩ := Json.toDigits_eq_cons n.natAbs
    rw [if_neg hneg]
    rw [hdigits] at hnatural ⊢
    -- the first character is a digit, and no sign
    split
    · rename_i heq
      rw [(List.cons.inj heq).1] at hd
      exact absurd hd (by decide)
    · rename_i heq
      rw [(List.cons.inj heq).1] at hd
      exact absurd hd (by decide)
    · rw [hnatural]
      cases isWritable n.natAbs with
      | true => exact congrArg some habs
      | false => rfl

/-- What is written of an integer has a digit in it. -/
theorem toString_ne_dashes (n : Int) : toString n ≠ "--" := by
  intro heq
  obtain ⟨d, ds, hdigits, hd⟩ := Json.toDigits_eq_cons n.natAbs
  have hmem : d ∈ (toString n).toList := by
    rw [toList_toString, Json.intChars_eq, hdigits]
    unfold Binary64.signed
    split <;> simp
  rw [heq] at hmem
  have hdash : d = '-' := by simpa using hmem
  rw [hdash] at hd
  exact absurd hd (by decide)

end Text.Integer

/-! ## Steps -/

namespace Machine

theorem stepCount_step_le (m : Machine) : m.step.stepCount ≤ m.stepCount + 1 := by
  rw [step_eq]
  split
  · exact Nat.le_succ _
  · cases m.table.outcome m.configuration with
    | accepts => exact Nat.le_succ _
    | rejects why => exact Nat.le_succ _
    | faults move => exact Nat.le_succ _
    | fires next => exact Nat.le_refl _

theorem stepCount_iterate_step_le (m : Machine) (n : Nat) :
    (step^[n] m).stepCount ≤ m.stepCount + n := by
  induction n generalizing m with
  | zero => exact Nat.le_refl _
  | succ n ih =>
    rw [Function.iterate_succ_apply]
    have := stepCount_step_le m
    have := ih m.step
    omega

end Machine

namespace Command

open Session
open Text (Loose)

/-! ## Giving a bound -/

/-- The arguments of a call with a bound. -/
def withBound (args : List String) (n : Int) : List String := args ++ ["--max_steps=" ++ toString n]

/-- The bounds that a command can be given: those that can be written. The other switches are not
touched by it. A bound that cannot be written is misuse. -/
structure TakesBound (switches : List Switch) (n : Int) : Prop where
  given : Text.Integer.isWritable n = true →
    ∀ args given, readArguments switches args = .ok given →
      ∃ given', readArguments switches (withBound args n) = .ok given' ∧
        given'.integer? "--max_steps" = some n ∧
        ∀ name, name ≠ "--max_steps" → given'.get? name = given.get? name
  misuse : Text.Integer.isWritable n = false →
    ∀ args given, readArguments switches args = .ok given →
      readArguments switches (withBound args n) = .error .misuse

theorem attached_toString {s : Switch} (h : s.takes = .integer) (n : Int) :
    s.attached (toString n) =
      if Text.Integer.isWritable n then .ok (some (toString n)) else .error .misuse := by
  have hdashes := Text.Integer.toString_ne_dashes n
  have hallows : Takes.integer.allows (toString n) = Text.Integer.isWritable n := by
    rw [Takes.allows, Text.Integer.read?_toString]
    cases Text.Integer.isWritable n <;> rfl
  have hhelp : decide (Takes.integer = .help) = false := rfl
  rw [Switch.attached, h, hallows, hhelp, Bool.false_and, if_neg Bool.false_ne_true,
    decide_eq_false hdashes, Bool.false_and, if_neg Bool.false_ne_true]

theorem takesBound {switches : List Switch} {s : Switch} (htakes : s.takes = .integer)
    (hname : s.name = "--max_steps")
    (hfind : (helpSwitches ++ switches).find? (·.name == s.name) = some s)
    (hequals : ∀ other ∈ helpSwitches ++ switches, '=' ∉ other.name.toList) (n : Int) :
    TakesBound switches n := by
  have hletters : s.name.toList = '-' :: '-' :: "max_steps".toList := by rw [hname]; rfl
  have hread : ∀ args given, readArguments switches args = .ok given →
      readArguments switches (withBound args n) =
        (s.attached (toString n)).map fun last => given ++ [("--max_steps", last)] := by
    intro args given h
    have hlast := readArguments_append_attached hletters hfind hequals (toString n) h
    rwa [hname] at hlast
  -- the switch comes last, so it hides an earlier one and nothing else
  refine ⟨fun hwritable args given h => ?_, fun hwritable args given h => ?_⟩
  · refine ⟨given ++ [("--max_steps", some (toString n))], ?_, ?_, fun name hother => ?_⟩
    · rw [hread args given h, attached_toString htakes, hwritable]
      rfl
    · rw [Given.integer?, Given.text?, Given.get?_append, if_pos rfl]
      show Text.Integer.read? (toString n) = some n
      rw [Text.Integer.read?_toString, hwritable, if_pos rfl]
    · rw [Given.get?_append, if_neg hother.symm]
  · rw [hread args given h, attached_toString htakes, hwritable]
    rfl

/-! ## The suite -/

namespace Suite

open TapeMachine.Suite

/-- What was shown of cases between two worlds: a line of JSON that tells each of them, or a table
of all of them and a line that sums them up. -/
def HasShown (given : Given) (cases : List Case) (w w' : World) : Prop :=
  if given.has "--json" then
    ∃ lines, w'.output = w.output ++ (lines.map Loose.whole).toArray ∧
      ∀ digitLimit, (Nat.toDigits 10 cases.length).length ≤ digitLimit →
        Job.ArePrinted digitLimit cases lines
  else
    ∃ events, w'.output = w.output ∧
      w'.events = (Array.push events (.shown (.drawing (results cases)) false)).push
        (.shown (.text (summaryText (summarize cases))) false)

/-- Without its directory there is no journal, and the command ends with a fault. -/
theorem faults_runLoaded (given : Given) {config : Config} {program : Program}
    (h : program.table.HasDirections) (inputs : List String) {w : World} {e : Files.FileError}
    (hmade : (w.files.ensureDirectories (config.text .outputDirectory)).2 = some e) :
    Faults (runLoaded given config program inputs) w := by
  obtain ⟨events, hcases⟩ := runIn_runInputs h inputs
    (boundOr config (given.integer? "--max_steps")) (!given.has "--json") w
  have hopen := @faults_openJournal { w with events := events } _ _ hmade (config.text .logPrefix)
  unfold runLoaded
  exact faults_bind_of_ok hcases (hopen.bind _)

namespace Job

/-- The directory of the journal can be made, and the files of its channels can be opened. -/
structure HasFiles (job : Job) (w : World) : Prop where
  directory : (w.files.ensureDirectories (job.config.text .outputDirectory)).2 = none
  files : ∀ channel, ((job.made w).fileAt? ((job.journal w.clock).path channel)).isSome

/-- All inputs are evaluated within a bound, and the verdicts shown; without the files for them the
command ends with a fault. -/
structure EvaluatesWithin (job : Job) (bound : Int) (args : List String) (w : World) : Prop where
  shows : job.HasFiles w → ∃ w' cases, runIn (run args) w = (.ok (.returned 0), w') ∧
    AreVerdicts job.program.table bound job.inputs cases ∧ HasShown job.given cases w w'
  faults : ¬ job.HasFiles w → Faults (run args) w

variable {job : Job} {args : List String} {w : World}

theorem exists_runIn_showCases (given : Given) {cases : List Case}
    (hids : ∀ k (h : k < cases.length), cases[k].id = k + 1) {w₀ w : World}
    (houtput : w.output = w₀.output) :
    ∃ w', runIn (showCases given cases) w = (.ok (), w') ∧ HasShown given cases w₀ w' := by
  cases hjson : given.has "--json" with
  | true =>
    refine ⟨_, runIn_showCases_of_json hjson cases w, ?_⟩
    rw [HasShown, if_pos hjson]
    refine ⟨cases.map caseLine, ?_, fun digitLimit hdigits => arePrinted_map_caseLine hids hdigits⟩
    rw [houtput, List.map_map]
    rfl
  | false =>
    refine ⟨_, runIn_showCases_of_not_json hjson cases w, ?_⟩
    rw [HasShown, hjson, if_neg Bool.false_ne_true]
    exact ⟨w.events, houtput, rfl⟩

/-- A suite is evaluated within the bound that is given, or within the one of the configuration. -/
theorem evaluatesWithin_boundOr (h : job.IsLoadedBy args w) :
    job.EvaluatesWithin (boundOr job.config (job.given.integer? "--max_steps")) args w := by
  refine ⟨fun hfiles => ?_, fun hfiles => ?_⟩
  · choose place hplace using fun channel => Option.isSome_iff_exists.1 (hfiles.files channel)
    obtain ⟨events, hrun⟩ := runIn_runLoaded_of_leadsTo job.given h.hasDirections job.inputs
      hfiles.directory fun channel => Files.Tree.fileAt?_eq_some.1 (hplace channel)
    generalize hrecorded : World.mk _ _ _ _ _ _ _ _ = recorded at hrun
    have houtput : recorded.output = w.output := by rw [← hrecorded]
    have hverdicts := areVerdicts_decided h.hasDirections
      (boundOr job.config (job.given.integer? "--max_steps")) job.inputs
    obtain ⟨w', hshow, hshown⟩ := exists_runIn_showCases job.given hverdicts.ids houtput
    refine ⟨w', _, ?_, hverdicts, hshown⟩
    rw [h.runIn_run, runIn_bind, hrun, hshow]
    rfl
  · rw [Faults, h.runIn_run]
    refine Faults.bind ?_ _
    cases hmade : (w.files.ensureDirectories (job.config.text .outputDirectory)).2 with
    | some e => exact faults_runLoaded job.given h.hasDirections job.inputs hmade
    | none =>
      have hnone : ∃ channel,
          (job.made w).fileAt? ((job.journal w.clock).path channel) = none := by
        by_contra hall
        refine hfiles ⟨hmade, fun channel => ?_⟩
        rw [Option.isSome_iff_ne_none]
        exact fun heq => hall ⟨channel, heq⟩
      obtain ⟨channel, hchannel⟩ := hnone
      obtain ⟨e, w', hrun⟩ :=
        runIn_runLoaded_of_none job.given h.hasDirections job.inputs hmade hchannel
      exact ⟨_, w', hrun⟩

end Job

end Suite

/-! ## The simulator -/

theorem faults_machineFor {config : Config} (h : fitsWord (config.int .maxHistory) = false)
    (w : World) : Faults (machineFor config) w := by
  unfold machineFor capacity?
  dsimp only
  rw [h]
  exact (faults_ofResult .machine MachineError.wideCapacity w).bind _

theorem faults_showTape {config : Config} {m : Machine} {e : Text.Integer.TooLong}
    (h : m.drawTape (config.int .tapeWindow) = .error e) (w : World) :
    Faults (showTape config m) w := by
  unfold showTape
  rw [h]
  exact (faults_ofResult .longInteger e w).bind _

theorem faults_showStatus {m : Machine} {e : Text.Integer.TooLong} (h : m.statusLine = .error e)
    (w : World) : Faults (showStatus m) w := by
  unfold showStatus
  rw [h]
  exact (faults_ofResult .longInteger e w).bind _

theorem faults_logRun {j : Journal} {w : World} (h : w.files.fileAt? (j.path .main) = none)
    (m : Machine) (source : Json) : Faults (Simulator.logRun j m source) w := by
  unfold Simulator.logRun
  refine faults_bind_of_ok (runIn_readClock w) ?_
  obtain ⟨e, hwrite⟩ := @runIn_writeJournal_of_none { w with clock := w.clock.tick } _ _ h
    [Journal.runEntry m source w.clock.next.stamp]
  exact ⟨_, _, hwrite⟩

namespace SingleRun

open Simulate

/-- The machine that has run a program within a bound. -/
def ran (r : SingleRun) (p : Program) (bound : Int) : Machine :=
  (((Machine.ofTable p.table (some (r.config.int .maxHistory).toNat)).load r.input).run
    bound).machine

/-- An input is run within a bound: the status tells what the evaluator says within it, and the
record has no more steps. If the system does not do what is asked of it the command ends with a
fault, and so it does with the text that is no input. -/
structure RunsWithin (r : SingleRun) (p : Program) (bound : Int) (args : List String) (w : World) :
    Prop where
  runs : r.input ≠ "--" → r.HasRoom w → ∃ status w',
    runIn (run (withInput args r.input)) w = (.ok (.exited status), w') ∧
    (status = 0 ↔ p.table.evaluate r.input bound = .ok .accepted) ∧
    (status = 2 ↔ p.table.evaluate r.input bound = .ok .rejected) ∧
    ∃ entry, HasAppended (r.journal w.clock) entry w.files (r.made w) w'.files ∧
      Journal.TellsRun entry (r.ran p bound) ∧ ((r.ran p bound).stepCount : Int) ≤ max bound 0
  faults : r.input = "--" ∨ ¬ r.HasRoom w → Faults (run (withInput args r.input)) w

variable {r : SingleRun} {args : List String} {w : World} {p : Program}

theorem stepCount_ran_le (h : p.table.HasDirections) (r : SingleRun) (bound : Int) :
    ((r.ran p bound).stepCount : Int) ≤ max bound 0 := by
  have hran := (Machine.run_eq_iterate
    (m := (Machine.ofTable p.table (some (r.config.int .maxHistory).toNat)).load r.input) h bound).1
  have hle := Machine.stepCount_iterate_step_le
    ((Machine.ofTable p.table (some (r.config.int .maxHistory).toNat)).load r.input) bound.toNat
  have hzero : ((Machine.ofTable p.table
    (some (r.config.int .maxHistory).toNat)).load r.input).stepCount = 0 := rfl
  rw [← hran, hzero] at hle
  show (((Machine.run _ bound).machine.stepCount : Nat) : Int) ≤ _
  omega

/-- A run cannot be recorded if the directory of the journal cannot be made, or the file in it not be
opened. -/
theorem faults_record
    (h : (w.files.ensureDirectories (r.config.text .outputDirectory)).2 = none →
      (r.made w).fileAt? ((r.journal w.clock).path .main) = none)
    (m : Machine) (source : Json) (status : Nat) :
    Faults (do
      let j ← openJournal (r.config.text .outputDirectory) (r.config.text .logPrefix)
      Simulator.logRun j m source
      pure status) w := by
  cases hmade : (w.files.ensureDirectories (r.config.text .outputDirectory)).2 with
  | some e => exact (faults_openJournal hmade _).bind _
  | none =>
    have hrecord := @faults_logRun (r.journal w.clock)
      { w with files := r.made w, clock := w.clock.tick } (h hmade)
    exact faults_bind_of_ok (runIn_openJournal hmade) ((hrecord m source).bind _)

/-- If something that is asked of the system is not done, or there is no input, the command ends with
a fault, however far it comes. -/
theorem faults_runOne (hvalid : r.config.Valid) (hprogram : (r.content w).program? = some p)
    {input : Option String} (hinput : input.getD "" = r.input)
    (h : input = none ∨ ¬ r.HasRoom w) :
    Faults (runOne r.config r.file input (r.given.integer? "--max_steps")) w := by
  -- in the order of the command: the history, the tape, the input, the status line, the record
  cases hfits : fitsWord (r.config.int .maxHistory) with
  | false =>
    unfold runOne
    exact (faults_machineFor hfits w).bind _
  | true =>
    rw [Faults, runIn_runOne_eq hvalid hfits hprogram hinput]
    cases htape : (r.ended p).drawTape (r.config.int .tapeWindow) with
    | error e => exact (faults_showTape htape w).bind _
    | ok drawing =>
      refine faults_bind_of_ok (runIn_showTape htape w) ?_
      cases input with
      | none => exact ⟨_, _, rfl⟩
      | some input =>
        have hroom := h.resolve_left (Option.some_ne_none input)
        rw [Option.isNone_some, if_neg Bool.false_ne_true]
        cases hline : (r.ended p).statusLine with
        | error e => exact (faults_showStatus hline _).bind _
        | ok line =>
          refine faults_bind_of_ok (runIn_showStatus hline _) ?_
          refine faults_record (r := r) (fun hmade => ?_) _ _ _
          -- everything else is done, so it must be the file that cannot be opened
          by_contra hsome
          refine hroom ⟨hfits, hmade, Option.isSome_iff_ne_none.2 hsome, fun q hq => ?_⟩
          obtain rfl := Option.some.inj (hprogram.symm.trans hq)
          exact ⟨⟨drawing, htape⟩, ⟨line, hline⟩⟩

/-- An input is run within the bound that is given, or within the one of the configuration. -/
theorem runsWithin_boundOr (h : r.IsCalledBy args w) (hprogram : (r.content w).program? = some p) :
    r.RunsWithin p (boundOr r.config (r.given.integer? "--max_steps")) args w := by
  obtain ⟨source, -, hsource⟩ := program?_ofName_eq_some_iff.1 hprogram
  have hdirections := (Program.isCompiled_of_ofSource hsource).hasDirections
  refine ⟨fun hinput hroom => ?_, fun hfails => ?_⟩
  · obtain ⟨place, hplace⟩ := Option.isSome_iff_exists.1 hroom.log
    have hleads := Files.Tree.fileAt?_eq_some.1 hplace
    obtain ⟨w', hrun, hfiles⟩ := runIn_runOne_of_program h.valid_config hroom hprogram hleads
    obtain ⟨hzero, -, htwo⟩ := status_cases (r.ended p).status
    have hverdict : p.table.evaluate r.input
        (boundOr r.config (r.given.integer? "--max_steps")) = .ok (r.ended p).verdict :=
      r.evaluate_eq hprogram
    refine ⟨if (r.ended p).status = .accepted then 0 else 2, w', ?_, ?_, ?_, r.entry p w.clock, ?_,
      Journal.tellsRun_runEntry (r.headAsTruth_ended p) _ _, stepCount_ran_le hdirections r _⟩
    · rw [h.runIn_run, if_neg hinput, map_eq_pure_bind, runIn_bind_of_ok hrun]
      rfl
    · rw [hverdict, Except.ok.injEq, Machine.verdict_eq_accepted_iff]
      exact hzero
    · rw [hverdict, Except.ok.injEq, Machine.verdict_eq_rejected_iff]
      exact htwo
    · rw [hfiles]
      exact hasAppended_of_leadsTo hleads
  · rw [Faults, h.runIn_run, map_eq_pure_bind]
    refine Faults.bind ?_ _
    by_cases hinput : r.input = "--"
    · -- the empty input is run in its place
      rw [if_pos hinput]
      exact @faults_runOne { r with input := "" } w p h.valid_config hprogram none rfl (.inl rfl)
    · rw [if_neg hinput]
      exact faults_runOne h.valid_config hprogram rfl (.inr (hfails.resolve_left hinput))

end SingleRun

/-! ## The bound that is used -/

/-- The suite and the simulator use the bound that they are given, whatever the configuration says,
unless it is zero: then they use the one of the configuration. All bounds but those with too many
digits can be given to them. -/
theorem given_bound_used (n : Int) :
    (∀ (job : Suite.Job) (args : List String) (w : World), job.IsLoadedBy args w →
      job.given.integer? "--max_steps" = some n →
      job.EvaluatesWithin (if n = 0 then job.config.int .maxBatchSteps else n) args w) ∧
    (∀ (r : SingleRun) (p : Program) (args : List String) (w : World), r.IsCalledBy args w →
      (r.content w).program? = some p → r.given.integer? "--max_steps" = some n →
      r.RunsWithin p (if n = 0 then r.config.int .maxBatchSteps else n) args w) ∧
    TakesBound Suite.manual.switches n ∧ TakesBound Simulate.manual.switches n := by
  refine ⟨fun job args w h hn => ?_, fun r p args w h hprogram hn => ?_, ?_, ?_⟩
  · rw [← boundOr_some, ← hn]
    exact Suite.Job.evaluatesWithin_boundOr h
  · rw [← boundOr_some, ← hn]
    exact SingleRun.runsWithin_boundOr h hprogram
  · exact @takesBound _ ⟨"--max_steps", .integer, false, "Override the iteration bound per input"⟩
      rfl rfl rfl (by decide) n
  · exact @takesBound _ ⟨"--max_steps", .integer, false, "Step bound for --input runs"⟩
      rfl rfl rfl (by decide) n

/-- A world with a program and an input that it accepts in one step. -/
def boundWorld : World where
  files := ⟨[(["in.txt"], .file "b\n".toUTF8), (["m.tm"], .file "q0 b/c,R ha".toUTF8)]⟩
  clock := SingleRun.sampleWorld.clock
  patience := 0

/-- A suite of that input with a bound below zero. -/
def boundJob (program : Program) : Suite.Job where
  given := [("--file", some "m.tm"), ("--inputs", some "in.txt"), ("--max_steps", some "-1")]
  config := .defaults
  program := program
  inputs := ["b"]

/-- A run of that input with a bound below zero. -/
def boundRun : SingleRun := ⟨[("--file", some "m.tm"), ("--max_steps", some "-1")], .defaults, "b"⟩

theorem boundRun_isCalledBy :
    boundRun.IsCalledBy ["--file", "m.tm", "--max_steps", "-1"] boundWorld where
  switches := rfl
  config := ⟨Config.defaultPath, .inr ⟨rfl, rfl⟩, .inr ⟨by decide +kernel, rfl⟩⟩

theorem boundRun_hasRoom : boundRun.HasRoom boundWorld where
  history := by decide +kernel
  directory := rfl
  log := by decide +kernel
  shown := by
    have hall : ((boundRun.content boundWorld).program?.all fun p =>
        ((boundRun.ended p).drawTape (boundRun.config.int .tapeWindow)).isOk &&
          (boundRun.ended p).statusLine.isOk) = true := by decide +kernel
    intro p hp
    rw [hp, Option.all_some, Bool.and_eq_true] at hall
    exact ⟨exists_of_isOk hall.1, exists_of_isOk hall.2⟩

theorem boundJob_hasFiles (program : Program) : (boundJob program).HasFiles boundWorld where
  directory := boundRun_hasRoom.directory
  files := show ∀ channel, ((boundWorld.files.ensureDirectories "logs/").1.fileAt?
      (Journal.path ⟨"logs/", "turing_", "2024-01-02"⟩ channel)).isSome by
    rintro (_ | _ | _) <;> decide +kernel

/-- With a bound below zero no step is made, and nothing is accepted. -/
theorem given_bound_used_negative :
    (∃ (w' : World) (cases : List Case),
      runIn (Suite.run ["--file", "m.tm", "--inputs", "in.txt", "--max_steps", "-1"])
        boundWorld = (.ok (.returned 0), w') ∧
      cases.map (·.input) = ["b"] ∧ ∀ c ∈ cases, c.status = .rejected) ∧
    ∃ (w' : World) (entry : Json),
      runIn (Simulate.run (SingleRun.withInput ["--file", "m.tm", "--max_steps", "-1"] "b"))
        boundWorld = (.ok (.exited 2), w') ∧
      entry.field? "steps" = some (.int 0) := by
  obtain ⟨hsuite, hsimulate, -, -⟩ := given_bound_used (-1)
  have hsome : (boundRun.content boundWorld).program?.isSome = true := by decide +kernel
  obtain ⟨p, hp⟩ := Option.isSome_iff_exists.1 hsome
  -- no step is allowed, so nothing is accepted
  have hrejected : ∀ input, p.table.evaluate input (-1) = .ok .rejected := fun _ => rfl
  constructor
  · obtain ⟨source, hsource, hcompiled⟩ := program?_ofName_eq_some_iff.1 hp
    have hread := (hsource.resolve_left fun hempty => absurd hempty.1 (by decide)).2
    have hloaded : (boundJob p).IsLoadedBy
        ["--file", "m.tm", "--inputs", "in.txt", "--max_steps", "-1"] boundWorld :=
      { switches := rfl
        config := .inl ⟨rfl, rfl⟩
        program := ⟨"m.tm", source, rfl, hread, hcompiled⟩
        inputs := ⟨"in.txt", "b\n", rfl, rfl, rfl⟩ }
    obtain ⟨w', cases, hrun, hverdicts, -⟩ :=
      (hsuite (boundJob p) _ _ hloaded rfl).shows (boundJob_hasFiles p)
    refine ⟨w', cases, hrun, hverdicts.inputs, fun c hc => ?_⟩
    exact Except.ok.inj ((hverdicts.evaluated c hc).symm.trans (hrejected _))
  · obtain ⟨status, w', hrun, -, htwo, entry, -, htells, -⟩ :=
      (hsimulate boundRun p _ _ boundRun_isCalledBy hp rfl).runs (by decide) boundRun_hasRoom
    obtain rfl := htwo.2 (hrejected _)
    exact ⟨w', entry, hrun, htells.steps⟩

/-- The bound zero is not used: the input is accepted, although no step is enough for that. -/
theorem zero_bound_not_used :
    (∃ p, (boundRun.content boundWorld).program? = some p ∧
      p.table.evaluate "b" 0 = .ok .rejected) ∧
    ∃ w', runIn (Simulate.run (SingleRun.withInput ["--file", "m.tm", "--max_steps", "0"] "b"))
      boundWorld = (.ok (.exited 0), w') := by
  constructor
  · have hsome : (boundRun.content boundWorld).program?.isSome = true := by decide +kernel
    obtain ⟨p, hp⟩ := Option.isSome_iff_exists.1 hsome
    exact ⟨p, hp, rfl⟩
  · obtain ⟨ending, w', hrun, hending⟩ := @exists_of_endsWith boundWorld _
      (Simulate.run (SingleRun.withInput ["--file", "m.tm", "--max_steps", "0"] "b"))
      (fun ending _ => ending == .exited 0) (by decide +kernel)
    rw [eq_of_beq hending] at hrun
    exact ⟨w', hrun⟩

end Command

end TapeMachine
