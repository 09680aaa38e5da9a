import Mathlib.Data.List.DropRight
import TapeMachine.Proofs.BatchedSuite
import TapeMachine.Proofs.DiagramLines
import TapeMachine.Proofs.EditedSettings

/-!
# Inputs that are typed again

The inputs of a suite are typed on one line, and the inputs of the last suite are offered as the
next line. That line leaves out the dashes: an empty input is written as nothing. It is read as the
same inputs all the same, since what has been read holds no comma and no white space at its ends,
and is never a dash.

## Main results

- `Suite.inputOf_toList`: an input that was read is read as itself
- `Suite.readInputs_writeInputs`: so the line that is offered is read as the inputs it was made of
- `Command.Simulator.evaluates_of_answer`: what the prompt for the inputs comes to
- `Command.Simulator.Offers.turn`: other choices of the menu leave the inputs as they are
- `Command.Simulator.suite_repeats`: to answer nothing repeats the suite, any number of times
-/

namespace TapeMachine

open Session
open Text (Loose)

/-! ## White space at the ends -/

namespace Text

theorem stripChars_eq (cs : List Char) :
    stripChars cs = (cs.dropWhile isBlank).rdropWhile isBlank := rfl

theorem mem_of_mem_stripChars {c : Char} {cs : List Char} (h : c ∈ stripChars cs) : c ∈ cs :=
  (List.dropWhile_suffix _).subset ((List.rdropWhile_prefix isBlank _).subset h)

/-- No white space is left to be taken off. -/
theorem stripChars_stripChars (cs : List Char) : stripChars (stripChars cs) = stripChars cs := by
  have hfront : Rule.Stops isBlank (stripChars cs) := by
    -- it begins as the text behind the white space does, if it is not empty
    obtain ⟨rest, hrest⟩ := List.rdropWhile_prefix isBlank (cs.dropWhile isBlank)
    rw [← stripChars_eq] at hrest
    have hstops := Rule.stops_dropWhile isBlank cs
    rw [← hrest] at hstops
    cases hstrip : stripChars cs with
    | nil => exact Rule.stops_nil _
    | cons c front =>
      rw [hstrip] at hstops
      exact Rule.stops_cons (hstops c rfl)
  have hdrop : (stripChars cs).dropWhile isBlank = stripChars cs :=
    Rule.dropWhile_append_of_stops (fun _ h => absurd h List.not_mem_nil) hfront
  rw [stripChars_eq, hdrop, stripChars_eq, List.rdropWhile_idempotent]

/-- The mark stands between the pieces, and in none of them. -/
theorem not_mem_of_mem_splitAt {α : Type} [DecidableEq α] {mark : α} {cs piece : List α}
    (h : piece ∈ splitAt mark cs) : mark ∉ piece := by
  induction cs generalizing piece with
  | nil =>
    obtain rfl := List.mem_singleton.1 h
    exact List.not_mem_nil
  | cons c rest ih =>
    rw [splitAt] at h
    split at h
    · rcases List.mem_cons.1 h with rfl | hrest
      · exact List.not_mem_nil
      · exact ih hrest
    · rename_i hc
      -- the character goes to the first piece of the rest
      cases hsplit : splitAt mark rest with
      | nil => exact absurd hsplit (splitAt_ne_nil mark rest)
      | cons first pieces =>
        rw [hsplit] at h ih
        rcases List.mem_cons.1 h with rfl | hrest
        · exact List.not_mem_cons_of_ne_of_not_mem (Ne.symm hc) (ih List.mem_cons_self)
        · exact ih (List.mem_cons_of_mem _ hrest)

end Text

/-! ## From a line to inputs and back -/

namespace Suite

open Text (stripChars splitAt)

/-- What is read is the text of the piece without white space at its ends, or nothing. -/
theorem inputOf_cases (piece : List Char) :
    inputOf piece = "" ∨
      inputOf piece = String.ofList (stripChars piece) ∧ inputOf piece ≠ "-" := by
  unfold inputOf
  dsimp only
  split
  · exact .inl rfl
  · rename_i hdash
    exact .inr ⟨rfl, hdash⟩

/-- An input that was read is read as itself. -/
theorem inputOf_toList (piece : List Char) : inputOf (inputOf piece).toList = inputOf piece := by
  rcases inputOf_cases piece with hempty | ⟨htext, hdash⟩
  · rw [hempty]
    rfl
  · have hstrip : String.ofList (stripChars (inputOf piece).toList) = inputOf piece := by
      rw [htext, String.toList_ofList, Text.stripChars_stripChars]
    rw [inputOf, hstrip, if_neg hdash]

/-- There is no comma in an input that was read. -/
theorem comma_not_mem_inputOf {piece : List Char} (h : ',' ∉ piece) :
    ',' ∉ (inputOf piece).toList := by
  rcases inputOf_cases piece with hempty | ⟨htext, -⟩
  · rw [hempty]
    exact List.not_mem_nil
  · rw [htext, String.toList_ofList]
    exact fun hmem => h (Text.mem_of_mem_stripChars hmem)

theorem readInputs_ne_nil (line : String) : readInputs line ≠ [] := by
  intro hnil
  exact Text.splitAt_ne_nil _ _ (List.map_eq_nil_iff.1 hnil)

/-- The line that inputs are offered as is read as these inputs. -/
theorem readInputs_writeInputs (line : String) :
    readInputs (writeInputs (readInputs line)) = readInputs line := by
  have hcomma : ∀ input ∈ readInputs line, ',' ∉ input.toList := by
    intro input hinput
    obtain ⟨piece, hpiece, rfl⟩ := List.mem_map.1 hinput
    exact comma_not_mem_inputOf (Text.not_mem_of_mem_splitAt hpiece)
  have hsplit : splitAt ',' (writeInputs (readInputs line)).toList =
      (readInputs line).map String.toList :=
    Text.splitAt_intercalate rfl (readInputs_ne_nil line) hcomma
  have hread : ∀ input ∈ readInputs line, inputOf input.toList = input := by
    intro input hinput
    obtain ⟨piece, -, rfl⟩ := List.mem_map.1 hinput
    exact inputOf_toList piece
  rw [readInputs, hsplit, List.map_map]
  exact (List.map_congr_left hread).trans (List.map_id _)

end Suite

/-! ## The prompt -/

namespace Command.Simulator

open TapeMachine.Suite (AreVerdicts areVerdicts_decided decided readInputs results writeInputs)

/-- What is asked for the inputs of a suite. -/
def suitePrompt : String := "Inputs (comma separated, '-' for empty)"

/-- The question for the inputs of a suite, with the last ones to be run again. -/
def suiteQuestion (s : Simulator) : Question :=
  ⟨.text, suitePrompt, .str (writeInputs s.inputs), []⟩

/-- The inputs are asked for, run as a suite in their order and shown with their verdicts. The
simulator remembers them, unless the file of the journal cannot be opened. -/
def Evaluates (s : Simulator) (w : World) (inputs : List String) : Prop :=
  ∃ cases result w', runIn s.runSuite w = (result, w') ∧
    AreVerdicts s.machine.table (s.config.int .maxBatchSteps) inputs cases ∧
    w'.events = (w.events.push (.asked s.suiteQuestion)).push
      (.shown (.drawing (results cases)) false) ∧
    match w.files.fileAt? ((s.journal.rotate w.clock.next.day).path .main) with
    | some _ => result = .ok { s with
        journal := s.journal.rotate w.clock.next.day, inputs := inputs }
    | none => ∃ e, result = .error (.file e)

variable {s s' : Simulator} {w w' : World} {answer : Json} {rest : List Json} {line : Loose}

/-- What the journal gets of a suite. -/
def summaryEntries (s : Simulator) (cases : List Case) : List Json :=
  [.obj (("source", .str (sourceName (s.config.text .machineFile))) ::
    Journal.summaryFields (TapeMachine.Suite.summarize cases))]

/-- The verdicts on inputs. -/
def verdicts (s : Simulator) (inputs : List String) : List Case :=
  decided s.machine.table (s.config.int .maxBatchSteps) 0 inputs

/-- The world in which the journal is written, when inputs were asked for and shown. -/
def afterShowing (s : Simulator) (w : World) (rest : List Json) (inputs : List String) : World :=
  { w with
    answers := rest
    clock := w.clock.tick
    events := (w.events.push (.asked s.suiteQuestion)).push
      (.shown (.drawing (results (s.verdicts inputs))) false) }

/-- When a line has been answered, its inputs are run and shown before the journal is written. -/
theorem runIn_runSuite (hdirections : s.machine.table.HasDirections)
    (hanswers : w.answers = answer :: rest)
    (hline : answerOr s.suiteQuestion.default answer = .str line) :
    runIn s.runSuite w = runIn (do
        writeJournal (s.journal.rotate w.clock.next.day) .main
          (s.summaryEntries (s.verdicts (readInputs line.mended)))
        pure { s with
          journal := s.journal.rotate w.clock.next.day, inputs := readInputs line.mended })
      (s.afterShowing w rest (readInputs line.mended)) := by
  have hask := runIn_ask_of_answers s.suiteQuestion hanswers
  rw [hline] at hask
  have hrun := TapeMachine.Suite.run_cases_eq hdirections (s.config.int .maxBatchSteps)
    (readInputs line.mended)
  refine (runIn_bind_of_ok hask).trans ?_
  dsimp only
  rw [hrun]
  rfl

/-- Whatever line is answered, its inputs are evaluated. -/
theorem evaluates_of_answer (hdirections : s.machine.table.HasDirections)
    (hanswers : w.answers = answer :: rest)
    (hline : answerOr s.suiteQuestion.default answer = .str line) :
    s.Evaluates w (readInputs line.mended) := by
  have hrun := runIn_runSuite hdirections hanswers hline
  have hverdicts : AreVerdicts s.machine.table (s.config.int .maxBatchSteps)
      (readInputs line.mended) (s.verdicts (readInputs line.mended)) :=
    areVerdicts_decided hdirections _ _
  unfold Evaluates
  -- the verdicts stand before the summary is written, which may fail
  cases hfile : w.files.fileAt? ((s.journal.rotate w.clock.next.day).path .main) with
  | some place =>
    have hwrite := runIn_writeJournal_of_leadsTo
      (w := s.afterShowing w rest (readInputs line.mended)) (Files.Tree.fileAt?_eq_some.1 hfile)
      (s.summaryEntries (s.verdicts (readInputs line.mended)))
    rw [runIn_bind_of_ok hwrite] at hrun
    exact ⟨_, _, _, hrun, hverdicts, rfl, rfl⟩
  | none =>
    obtain ⟨e, he⟩ := runIn_writeJournal_of_none
      (w := s.afterShowing w rest (readInputs line.mended)) hfile
      (s.summaryEntries (s.verdicts (readInputs line.mended)))
    rw [runIn_bind, he] at hrun
    exact ⟨_, _, _, hrun, hverdicts, rfl, e, rfl⟩

/-! ## Choices that leave the inputs alone -/

/-- Whatever a session ends well with has a property. -/
def Gives {α : Type} (P : α → Prop) (session : Session α) : Prop :=
  ∀ w a w', runIn session w = (.ok a, w') → P a

namespace Gives

variable {α β : Type} {P : β → Prop}

protected theorem pure {b : β} (h : P b) : Gives P (pure b) := fun _ _ _ hrun =>
  (runIn_pure_eq_ok hrun).1 ▸ h

protected theorem throw (e : Fault) : Gives P (throw e) := fun _ _ _ hrun =>
  absurd hrun runIn_throw_ne_ok

theorem andThen {Q : α → Prop} {session : Session α} {f : α → Session β} (hQ : Gives Q session)
    (h : ∀ a, Q a → Gives P (f a)) : Gives P (session >>= f) := by
  intro w b w' hrun
  obtain ⟨a, w₁, hfirst, hrest⟩ := runIn_bind_eq_ok hrun
  exact h a (hQ w a w₁ hfirst) w₁ b w' hrest

protected theorem bind {session : Session α} {f : α → Session β} (h : ∀ a, Gives P (f a)) :
    Gives P (session >>= f) :=
  andThen (fun _ _ _ _ => trivial) fun a _ => h a

/-- What an edit takes over is what is made of the settings. -/
theorem editConfig {config : Config} {save : Config → Session Unit} {adopt : Config → Session β}
    (h : ∀ config, Gives P (adopt config)) :
    Gives (fun edited => ∀ b, edited = some b → P b) (editConfig config save adopt) := by
  refine .bind fun _ => .bind fun answers => .bind fun outcome => ?_
  cases outcome with
  | error e => exact .bind fun _ => .pure nofun
  | ok _ =>
    refine andThen (h _) fun adopted hadopted => .bind fun _ => .pure ?_
    rintro b ⟨⟩
    exact hadopted

end Gives

/-- The session gives a simulator with the inputs of the last suite. -/
abbrev KeepsInputs (s : Simulator) (session : Session Simulator) : Prop :=
  Gives (fun s' => s'.inputs = s.inputs) session

theorem keepsInputs_play (s : Simulator) : s.KeepsInputs s.play := by
  unfold Simulator.play
  refine .bind fun w => .bind fun (m, ending) => ?_
  cases ending
  · exact .pure rfl
  · exact .pure rfl
  all_goals exact .throw _

theorem keepsInputs_loadInput (s : Simulator) : s.KeepsInputs s.loadInput := by
  have hmarks : ∀ answer marks, s.KeepsInputs (s.showMarks answer marks) := fun _ _ =>
    .bind fun _ => .throw _
  unfold Simulator.loadInput
  refine .bind fun answer => ?_
  split
  · exact .pure rfl
  · exact hmarks _ _
  · exact hmarks _ _
  · exact .throw _

theorem keepsInputs_moveHead (s : Simulator) : s.KeepsInputs s.moveHead := by
  have hrefuse : s.KeepsInputs (moveHead.refuse s) := .bind fun _ => .pure rfl
  unfold Simulator.moveHead
  refine .bind fun answer => ?_
  split
  · split
    · exact .pure rfl
    · exact hrefuse
  · exact .pure rfl
  · split
    · exact hrefuse
    · exact .throw _
  · exact .throw _

theorem keepsInputs_loadMachine (s : Simulator) : s.KeepsInputs s.loadMachine := by
  unfold Simulator.loadMachine
  refine .bind fun answer => .bind fun outcome => ?_
  cases outcome with
  | error e => exact .bind fun _ => .bind fun _ => .pure rfl
  | ok m => exact .bind fun _ => .pure rfl

theorem keepsInputs_edit (s : Simulator) : s.KeepsInputs s.edit := by
  have hadopt : ∀ config : Config, s.KeepsInputs (do
      let m ← ofResult .machine (s.machine.setCapacity (some (config.int .maxHistory)))
      pure { s with config := config, machine := m }) := fun _ => .bind fun _ => .pure rfl
  refine (Gives.editConfig hadopt).andThen fun edited hedited => ?_
  cases edited with
  | none => exact .pure rfl
  | some s' => exact .pure (hedited s' rfl)

/-- Only running a suite changes the inputs. -/
theorem inputs_of_carryOut {choice : Json} (hne : choice ≠ .str "7")
    (hrun : runIn (s.carryOut choice) w = (.ok (some s'), w')) : s'.inputs = s.inputs := by
  have hmap : ∀ {session : Session Simulator}, s.KeepsInputs session →
      runIn (some <$> session) w = (.ok (some s'), w') → s'.inputs = s.inputs := by
    intro session hkeeps hsession
    obtain ⟨s₁, hs₁, hsome⟩ := runIn_map_eq_ok hsession
    rw [← Option.some.inj hsome]
    exact hkeeps w s₁ w' hs₁
  have hpure : ∀ {s₁ : Simulator}, runIn (pure (some s₁)) w = (.ok (some s'), w') →
      s₁.inputs = s.inputs → s'.inputs = s.inputs := by
    intro s₁ h hs₁
    rw [← Option.some.inj (runIn_pure_eq_ok h).1]
    exact hs₁
  unfold Simulator.carryOut at hrun
  -- in the order of the menu
  split at hrun
  · exact hpure hrun rfl
  · exact hpure hrun rfl
  · exact hmap s.keepsInputs_play hrun
  · exact hmap s.keepsInputs_loadInput hrun
  · exact hmap s.keepsInputs_moveHead hrun
  · exact hmap s.keepsInputs_loadMachine hrun
  · exact absurd rfl hne
  · exact hmap (.bind fun _ => .pure rfl) hrun
  · exact hmap s.keepsInputs_edit hrun
  · obtain ⟨_, w₁, -, hnone⟩ := runIn_bind_eq_ok hrun
    cases (runIn_pure_eq_ok hnone).1
  · exact hpure hrun rfl

/-! ## The default, over and over -/

/-- The simulator offers the inputs, and its table is one that can be run. -/
structure Offers (s : Simulator) (inputs : List String) : Prop where
  inputs_eq : s.inputs = inputs
  directions : s.machine.table.HasDirections

/-- A choice leaves a table that can be run. -/
theorem hasDirections_of_carryOut {choice : Json} (h : s.machine.table.HasDirections)
    (hrun : runIn (s.carryOut choice) w = (.ok (some s'), w')) :
    s'.machine.table.HasDirections := by
  rcases changes_of_carryOut hrun with ⟨-, hload⟩ | ⟨-, hchanges⟩
  · obtain ⟨_, _, -, -, -, rfl | ⟨m, source, value, hcompile, -, rfl⟩⟩ :=
      runIn_loadMachine_eq_ok hload
    · exact h
    · obtain ⟨program, hprogram, rfl⟩ := Machine.compile_eq_ok hcompile
      exact (Program.isCompiled_of_ofSource hprogram).hasDirections
  · cases hchanges with
    | worked hm => exact hm.table_eq.symm ▸ h
    | listed j inputs => exact h
    | edited hvalid hprogram hcapacity => exact h

/-- A line is answered to the prompt if a suite comes out. -/
theorem exists_line_of_runSuite (hrun : runIn s.runSuite w = (.ok s', w')) :
    ∃ answer rest line, w.answers = answer :: rest ∧
      answerOr s.suiteQuestion.default answer = .str line := by
  obtain ⟨value, w₁, hask, hrest⟩ := runIn_bind_eq_ok hrun
  cases hanswers : w.answers with
  | nil =>
    unfold ask at hask
    rw [runIn_get_bind, hanswers] at hask
    exact absurd hask runIn_throw_ne_ok
  | cons answer rest =>
    have hvalue := congrArg Prod.fst ((runIn_ask_of_answers s.suiteQuestion hanswers).symm.trans hask)
    obtain rfl := Except.ok.inj hvalue
    split at hrest
    · rename_i line hline
      exact ⟨answer, rest, line, rfl, hline⟩
    · exact absurd hrest runIn_throw_ne_ok

/-- What a suite leaves, if it is the default that is answered: the inputs that were offered. -/
theorem Offers.runSuite {inputs : List String} (h : s.Offers inputs)
    (hread : readInputs (writeInputs inputs) = inputs)
    (hrun : runIn s.runSuite w = (.ok s', w'))
    (hdefault : ∀ x ∈ exchanges w w', x.1.prompt = suitePrompt → x.2 = .null) :
    s'.inputs = inputs := by
  obtain ⟨answer, rest, line, hanswers, hline⟩ := exists_line_of_runSuite hrun
  obtain ⟨cases, result, w₁, hrun₁, -, hevents, hresult⟩ :=
    evaluates_of_answer h.directions hanswers hline
  obtain ⟨rfl, rfl⟩ := Prod.mk.inj (hrun₁.symm.trans hrun)
  have hexchanges : exchanges w w₁ = [(s.suiteQuestion, answer)] := by
    simp [exchanges, hevents, hanswers, Event.question?]
  -- the one question that was asked is that for the line
  obtain rfl : answer = .null := by
    rw [hexchanges] at hdefault
    exact hdefault _ List.mem_cons_self rfl
  obtain rfl : Loose.whole (writeInputs s.inputs) = line := Json.str.inj hline
  split at hresult
  · rw [Except.ok.inj hresult]
    show readInputs (writeInputs s.inputs) = inputs
    rw [h.inputs_eq, hread]
  · obtain ⟨e, he⟩ := hresult
    contradiction

/-- A turn in which nothing but the default is answered for the inputs offers the same inputs. -/
theorem Offers.turn {inputs : List String} (h : s.Offers inputs)
    (hread : readInputs (writeInputs inputs) = inputs)
    (hrun : runIn s.turn w = (.ok (some s'), w'))
    (hdefault : ∀ x ∈ exchanges w w', x.1.prompt = suitePrompt → x.2 = .null) :
    s'.Offers inputs := by
  obtain ⟨choice, w₁, hchoose, hcarry⟩ := runIn_bind_eq_ok hrun
  have hasks := (s.tallies_choose.asks hchoose).trans ((s.tallies_carryOut choice).asks hcarry)
  rw [hasks.exchanges_eq] at hdefault
  refine ⟨?_, hasDirections_of_carryOut h.directions hcarry⟩
  by_cases hsuite : choice = .str "7"
  · subst hsuite
    obtain ⟨s₁, hs₁, hsome⟩ := runIn_map_eq_ok hcarry
    obtain rfl := Option.some.inj hsome
    exact h.runSuite hread hs₁ fun x hx => hdefault x (List.mem_append_right _ hx)
  · rw [inputs_of_carryOut hsuite hcarry, h.inputs_eq]

/-- And so does a session of such turns. -/
theorem Offers.afterTurns {inputs : List String} {interrupts : List (Option Nat)}
    (h : s.Offers inputs) (hread : readInputs (writeInputs inputs) = inputs)
    (hrun : runIn (afterTurns interrupts s) w = (.ok s', w'))
    (hdefault : ∀ x ∈ exchanges w w', x.1.prompt = suitePrompt → x.2 = .null) :
    s'.Offers inputs := by
  induction interrupts generalizing s w with
  | nil =>
    obtain ⟨rfl, -⟩ := runIn_pure_eq_ok hrun
    exact h
  | cons interruptAt later ih =>
    obtain ⟨s₁, w₁, hturn, hlater⟩ := runIn_afterTurns_cons_eq_ok hrun
    have hasks := (s.tallies_turn.asks hturn).trans ((tallies_afterTurns later s₁).asks hlater)
    have hexchanges := hasks.exchanges_eq
    rw [show exchanges w w' = _ from hexchanges] at hdefault
    refine ih (h.turn hread hturn fun x hx => ?_) hlater fun x hx => ?_
    · exact hdefault x (List.mem_append_left _ hx)
    · exact hdefault x (List.mem_append_right _ hx)

/-- Inputs that were evaluated are offered next. -/
theorem Evaluates.offers {inputs : List String} (h : s.Evaluates w inputs)
    (hdirections : s.machine.table.HasDirections) (hrun : runIn s.runSuite w = (.ok s', w')) :
    s'.Offers inputs := by
  obtain ⟨cases, result, w₁, hrun₁, -, -, hresult⟩ := h
  obtain ⟨rfl, rfl⟩ := Prod.mk.inj (hrun₁.symm.trans hrun)
  split at hresult
  · rw [Except.ok.inj hresult]
    exact ⟨rfl, hdirections⟩
  · obtain ⟨e, he⟩ := hresult
    contradiction

/-- A simulator whose journal is kept beside the program. -/
def listingSimulator : Simulator where
  machine := Machine.ofTable Suite.countingTable none
  config := Config.defaults
  configPath := "c.json"
  journal := ⟨"", "run_", "2024-01-02"⟩
  inputs := Sample.inputs

/-- Dashes, an empty piece and white space around what is typed. Then the default is answered, and
another answer of that kind is left. -/
def listingWorld : World where
  files := ⟨[]⟩
  answers := [.str " - ,b,,\u00A0a-\u2003", .str "7", .null, .null]
  clock := ⟨⟨"2024-01-02", "2024-01-02T03:04:05+00:00"⟩, []⟩
  patience := 5

/-- Is an exchange one that leaves the inputs of suites as they are, because another thing was asked
for or nothing was answered? -/
def repeats : Question × Json → Bool
  | (_, .null) => true
  | (q, _) => q.prompt != suitePrompt

theorem eq_null_of_repeats {x : Question × Json} (h : repeats x = true)
    (hprompt : x.1.prompt = suitePrompt) : x.2 = .null := by
  unfold repeats at h
  split at h
  · rfl
  · exact absurd hprompt (bne_iff_ne.1 h)

/-- Are there answers left, of which the first is the default? -/
def defaultIsNext : List Json → Bool
  | .null :: _ => true
  | _ => false

theorem exists_of_defaultIsNext {answers : List Json} (h : defaultIsNext answers = true) :
    ∃ rest, answers = .null :: rest := by
  unfold defaultIsNext at h
  split at h
  · exact ⟨_, rfl⟩
  · contradiction

end Command.Simulator

end TapeMachine
