import TapeMachine.Proofs.FileNames
import TapeMachine.Proofs.JsonRoundTrip
import TapeMachine.Proofs.SessionRuns

/-!
# Sessions with a journal

A journal is opened, written to and rotated, in any order and at any time. `Journal.Call` is what
can be asked of it, and `Journal.sendings` says which entries are meant for which file: the names of
the files are made of the day that the clock gave when the journal was opened or rotated last.

Where a path leads depends on the directories only, and to write to a file changes none of them. So
whether a call fails is settled when the journal is open, and each file grows by what is sent to it.

## Main results

- `runIn_performAll`: what calls do to the files
- `splitAt_lines`: entries are read back line by line
- `performAll_appends`: over a whole session files only grow, by the lines of what was sent to them
-/

namespace TapeMachine

open Files (Place)
open Text (Loose)

namespace Journal

open Files (bytesOf)
open Files.Tree (SameDirectories LeadsTo)
open Session (runIn)
open Text (octets lineFeed)

/-! ## Calls -/

/-- What can be asked of a journal that is open. -/
inductive Call where
  | log (entry : Json)
  | logBatch (entries : List Json)
  | logSummary (entries : List Json)
  | logAccepted (entries : List Json)
  | logRejected (entries : List Json)
  | rotate

/-- Carries out a call. -/
def Call.perform (j : Journal) : Call → Session Journal
  | .log entry => do Session.writeJournal j .main [entry]; pure j
  | .logBatch entries => do Session.writeJournal j .main entries; pure j
  | .logSummary entries => do Session.writeJournal j .main entries; pure j
  | .logAccepted entries => do Session.writeJournal j .accepted entries; pure j
  | .logRejected entries => do Session.writeJournal j .rejected entries; pure j
  | .rotate => Session.rotateJournal j

/-- Carries out calls one after the other, and tells which succeeded. One that fails leaves the
journal open. -/
def performAll (j : Journal) : List Call → Session (List Bool)
  | [] => pure []
  | call :: rest => do
    match ← Session.attempt (fun _ => true) (call.perform j) with
    | .ok j => pure (true :: (← performAll j rest))
    | .error _ => pure (false :: (← performAll j rest))

/-! ## What calls send, and where -/

/-- Entries, and the path of the file that they are for. -/
structure Sending where
  path : Loose
  entries : List Json

/-- What a call sends on a day. -/
def Call.sending? (directory logPrefix : Loose) (day : String) : Call → Option Sending
  | .log entry => some ⟨Files.join directory (logPrefix ++ Loose.whole (day ++ ".jsonl")), [entry]⟩
  | .logBatch entries | .logSummary entries =>
    some ⟨Files.join directory (logPrefix ++ Loose.whole (day ++ ".jsonl")), entries⟩
  | .logAccepted entries =>
    some ⟨Files.join directory (Loose.whole ("accepted_" ++ (day ++ ".jsonl"))), entries⟩
  | .logRejected entries =>
    some ⟨Files.join directory (Loose.whole ("rejected_" ++ (day ++ ".jsonl"))), entries⟩
  | .rotate => none

/-- What calls send one after the other. The day is the one that the clock gives next, and another
one after each rotation. -/
def sendings (directory logPrefix : Loose) (clock : Clock) : List Call → List (Option Sending)
  | [] => []
  | call :: rest =>
    match call.sending? directory logPrefix clock.next.day with
    | some s => some s :: sendings directory logPrefix clock rest
    | none => none :: sendings directory logPrefix clock.tick rest

/-- Does the path lead to a place? -/
def Sending.arrivesAt (tree : Files.Tree) (place : Place) (s : Sending) : Bool :=
  tree.fileAt? s.path = some place

/-- Does the path lead to a file? A call that sends nothing needs none. -/
def succeeds (tree : Files.Tree) : Option Sending → Bool
  | some s => (tree.fileAt? s.path).isSome
  | none => true

/-- The sendings whose paths lead to a place. -/
def arrivals (tree : Files.Tree) (place : Place) (ss : List (Option Sending)) : List Sending :=
  ss.filterMap fun s => s.filter (·.arrivesAt tree place)

/-- What stands at a place when entries have arrived behind what stood there. -/
def grown (held : Option Files.Entry) : List Sending → Option Files.Entry
  | [] => held
  | arrived => some (.file (bytesOf held ++ (lines (arrived.flatMap (·.entries))).toUTF8))

theorem lines_append (es fs : List Json) : lines (es ++ fs) = lines es ++ lines fs := by
  simp [lines, String.join_append]

theorem grown_cons (held : Option Files.Entry) (s : Sending) (arrived : List Sending) :
    grown held (s :: arrived) =
      grown (some (.file (bytesOf held ++ (lines s.entries).toUTF8))) arrived := by
  cases arrived with
  | nil => simp [grown]
  | cons s' arrived =>
    -- the lines of all entries are the first piece and then the others
    have hbytes : (lines ((s :: s' :: arrived).flatMap (·.entries))).toUTF8 =
        (lines s.entries).toUTF8 ++ (lines ((s' :: arrived).flatMap (·.entries))).toUTF8 := by
      rw [List.flatMap_cons, lines_append]
      simp only [String.toUTF8_eq_toByteArray, String.toByteArray_append]
    show some (Files.Entry.file _) = some (Files.Entry.file _)
    rw [hbytes, ← ByteArray.append_assoc]
    rfl

/-! ## Carrying out calls -/

variable {call : Call} {j : Journal} {s : Sending} {w : World}

/-- A call that sends something writes to a channel. -/
theorem perform_of_sending (h : call.sending? j.directory j.logPrefix j.today = some s) :
    ∃ channel, call.perform j = (do Session.writeJournal j channel s.entries; pure j) ∧
      j.path channel = s.path := by
  cases call with
  | log entry => cases h; exact ⟨.main, rfl, rfl⟩
  | logBatch entries => cases h; exact ⟨.main, rfl, rfl⟩
  | logSummary entries => cases h; exact ⟨.main, rfl, rfl⟩
  | logAccepted entries => cases h; exact ⟨.accepted, rfl, rfl⟩
  | logRejected entries => cases h; exact ⟨.rejected, rfl, rfl⟩
  | rotate => contradiction

theorem runIn_attempt_of_leadsTo (h : call.sending? j.directory j.logPrefix j.today = some s)
    {place : Place} (hleads : w.files.LeadsTo s.path place) :
    runIn (Session.attempt (fun _ => true) (call.perform j)) w =
      (.ok (.ok j), { w with files := w.files.appendAt place (lines s.entries).toUTF8 }) := by
  obtain ⟨channel, hperform, hpath⟩ := perform_of_sending h
  rw [← hpath] at hleads
  rw [Session.runIn_attempt, hperform, Session.runIn_bind,
    Session.runIn_writeJournal_of_leadsTo hleads]
  rfl

theorem runIn_attempt_of_none (h : call.sending? j.directory j.logPrefix j.today = some s)
    (hnone : w.files.fileAt? s.path = none) :
    ∃ e, runIn (Session.attempt (fun _ => true) (call.perform j)) w = (.ok (.error e), w) := by
  obtain ⟨channel, hperform, hpath⟩ := perform_of_sending h
  rw [← hpath] at hnone
  obtain ⟨e, he⟩ := Session.runIn_writeJournal_of_none hnone s.entries
  refine ⟨.file e, ?_⟩
  rw [Session.runIn_attempt, hperform, Session.runIn_bind, he]
  rfl

theorem runIn_attempt_rotate (j : Journal) (w : World) :
    runIn (Session.attempt (fun _ => true) (Call.rotate.perform j)) w =
      (.ok (.ok (j.rotate w.clock.next.day)), { w with clock := w.clock.tick }) := rfl

theorem eq_rotate {directory logPrefix : Loose} {day : String}
    (h : call.sending? directory logPrefix day = none) : call = .rotate := by
  cases call <;> first | rfl | contradiction

theorem arrivals_cons_of_arrives {tree : Files.Tree} {place : Place}
    (h : tree.fileAt? s.path = some place) (ss : List (Option Sending)) :
    arrivals tree place (some s :: ss) = s :: arrivals tree place ss :=
  List.filterMap_cons_some (by simp [Sending.arrivesAt, h])

theorem arrivals_cons_of_ne {tree : Files.Tree} {place : Place}
    (h : tree.fileAt? s.path ≠ some place) (ss : List (Option Sending)) :
    arrivals tree place (some s :: ss) = arrivals tree place ss :=
  List.filterMap_cons_none (by simp [Sending.arrivesAt, h])

section

variable {rest : List Call} {w₁ w' : World} {outcomes : List Bool}

/-- Behind a call that succeeds the others are carried out with the journal that it gives. -/
theorem runIn_performAll_cons_of_ok {j' : Journal}
    (hcall : runIn (Session.attempt (fun _ => true) (call.perform j)) w = (.ok (.ok j'), w₁))
    (hrest : runIn (performAll j' rest) w₁ = (.ok outcomes, w')) :
    runIn (performAll j (call :: rest)) w = (.ok (true :: outcomes), w') := by
  rw [performAll, Session.runIn_bind, hcall]
  dsimp only
  rw [Session.runIn_bind, hrest]
  rfl

/-- Behind one that fails they are carried out with the journal as it was. -/
theorem runIn_performAll_cons_of_error {e : Fault}
    (hcall : runIn (Session.attempt (fun _ => true) (call.perform j)) w = (.ok (.error e), w₁))
    (hrest : runIn (performAll j rest) w₁ = (.ok outcomes, w')) :
    runIn (performAll j (call :: rest)) w = (.ok (false :: outcomes), w') := by
  rw [performAll, Session.runIn_bind, hcall]
  dsimp only
  rw [Session.runIn_bind, hrest]
  rfl

end

/-- What is appended at a place is what has arrived there first. -/
theorem grown_appendAt {tree files : Files.Tree} {found : Place}
    (hfile : tree.fileAt? s.path = some found) (hleads : files.LeadsTo s.path found)
    (ss : List (Option Sending)) (place : Place) :
    grown ((files.appendAt found (lines s.entries).toUTF8).find? place) (arrivals tree place ss) =
      grown (files.find? place) (arrivals tree place (some s :: ss)) := by
  rw [hleads.find?_appendAt]
  by_cases hplace : place = found
  · rw [if_pos hplace, hplace, arrivals_cons_of_arrives hfile, grown_cons]
    rfl
  · rw [if_neg hplace, arrivals_cons_of_ne]
    rw [hfile]
    exact fun heq => hplace (Option.some.inj heq).symm

/-- What calls have sent arrives, and nothing else is changed. Since files are no directories, the
paths lead to the same places all along. -/
theorem runIn_performAll {tree : Files.Tree} {directory logPrefix : Loose} {clock : Clock}
    (calls : List Call) (hclock : w.clock = clock.tick) (hsame : SameDirectories tree w.files) :
    ∃ w', runIn (performAll ⟨directory, logPrefix, clock.next.day⟩ calls) w =
        (.ok ((sendings directory logPrefix clock calls).map (succeeds tree)), w') ∧
      ∀ place, w'.files.find? place = grown (w.files.find? place)
        (arrivals tree place (sendings directory logPrefix clock calls)) := by
  -- on the calls: the journal has the day of the clock, which a rotation reads again, and the
  -- directories of the world are those of the first tree, so the paths lead where they led
  induction calls generalizing w clock with
  | nil => exact ⟨w, rfl, fun place => rfl⟩
  | cons call rest ih =>
    cases hsending : call.sending? directory logPrefix clock.next.day with
    | none =>
      obtain rfl := eq_rotate hsending
      obtain ⟨w', hrun, hfind⟩ :=
        @ih { w with clock := w.clock.tick } clock.tick (by rw [hclock]) hsame
      have hday : w.clock.next.day = clock.tick.next.day := by rw [hclock]
      rw [sendings, hsending]
      refine ⟨w', ?_, hfind⟩
      rw [← hday] at hrun
      exact runIn_performAll_cons_of_ok (runIn_attempt_rotate _ w) hrun
    | some s =>
      rw [sendings, hsending]
      dsimp only
      rw [List.map_cons, succeeds]
      -- a call that fails leaves the world as it is, one that succeeds adds to one file
      cases hfile : tree.fileAt? s.path with
      | none =>
        have hnone : w.files.fileAt? s.path = none := by
          rw [← Files.Tree.fileAt?_of_same hsame, hfile]
        obtain ⟨e, he⟩ := runIn_attempt_of_none (j := ⟨directory, logPrefix, clock.next.day⟩)
          hsending hnone
        obtain ⟨w', hrun, hfind⟩ := ih hclock hsame
        refine ⟨w', runIn_performAll_cons_of_error he hrun, fun place => ?_⟩
        rw [hfind, arrivals_cons_of_ne (by simp [hfile])]
      | some found =>
        have hleads := (Files.Tree.fileAt?_eq_some.1 hfile).of_same hsame
        obtain ⟨w', hrun, hfind⟩ := @ih
          { w with files := w.files.appendAt found (lines s.entries).toUTF8 } clock hclock
          (hsame.trans (hleads.sameDirectories _))
        refine ⟨w', runIn_performAll_cons_of_ok (runIn_attempt_of_leadsTo
          (j := ⟨directory, logPrefix, clock.next.day⟩) hsending hleads) hrun, fun place => ?_⟩
        rw [hfind, grown_appendAt hfile hleads]

/-! ## Reading the lines -/

/-- The value that a line of a file holds, within bounds on the digits of integers and on depth. -/
def entryOf? (digitLimit depth : Nat) (line : List UInt8) : Option Json := do
  let text ← (Text.Utf8.decode ⟨line.toArray⟩).toOption
  (Json.readWithin digitLimit depth text.toList).toOption

variable {digitLimit depth : Nat}

theorem entryOf?_compact {entry : Json} (h : entry.Readable digitLimit depth) :
    entryOf? digitLimit depth (octets entry.compact) = some entry := by
  have hdecode : Text.Utf8.decode ⟨(octets entry.compact).toArray⟩ = .ok entry.compact :=
    Text.Utf8.decode_toUTF8 entry.compact
  simp [entryOf?, hdecode, Json.readWithin_compact h, Except.toOption]

theorem newline_not_mem_compact {entry : Json} (h : entry.Readable digitLimit depth) :
    '\n' ∉ entry.compact.toList := by
  intro hmem
  exact absurd (h.isLineBreak_eq_false _ hmem) (by decide)

/-- The lines behind those that a file held are the entries, in order. -/
theorem splitAt_lines {entries : List Json} (h : ∀ e ∈ entries, e.Readable digitLimit depth)
    {held : ByteArray} {old : List (List UInt8)}
    (hheld : Text.splitAt lineFeed held.data.toList = old ++ [[]]) :
    ∃ new, Text.splitAt lineFeed (held ++ (lines entries).toUTF8).data.toList = old ++ new ++ [[]] ∧
      new.map (entryOf? digitLimit depth) = entries.map some := by
  refine ⟨entries.map fun e => octets e.compact, ?_, ?_⟩
  · have hlines : lines entries = String.join ((entries.map Json.compact).map (· ++ "\n")) := by
      rw [lines, List.map_map]
      rfl
    have hnewline : ∀ line ∈ entries.map Json.compact, '\n' ∉ line.toList := by
      rintro line hline
      obtain ⟨e, he, rfl⟩ := List.mem_map.1 hline
      exact newline_not_mem_compact (h e he)
    -- no entry holds a newline, so cutting at newlines takes the entries apart
    have hcut := Text.splitAt_octets_lines hnewline []
    rw [List.append_nil, ← hlines, List.map_map] at hcut
    rw [ByteArray.toList_data_append, Text.splitAt_append_of_closed hheld]
    show old ++ Text.splitAt lineFeed (octets (lines entries)) = _
    rw [hcut, List.append_assoc]
    rfl
  · rw [List.map_map]
    exact List.map_congr_left fun e he => entryOf?_compact (h e he)

/-! ## Sessions -/

/-- What has become of a place where sendings arrived: the lines of their entries stand behind what
was there before, and where nothing arrived no file has changed. If the file was empty, or its last
line was ended, the entries can be read back line by line. -/
structure HasReceived (before after : Files.Tree) (place : Place) (arrived : List Sending) :
    Prop where
  untouched : arrived = [] → ∀ bytes,
    after.find? place = some (.file bytes) ↔ before.find? place = some (.file bytes)
  appended : arrived ≠ [] → after.find? place = some (.file
    (before.bytesAt place ++ (lines (arrived.flatMap (·.entries))).toUTF8))
  readBack : ∀ digitLimit depth old,
    (∀ e ∈ arrived.flatMap (·.entries), e.Readable digitLimit depth) →
    Text.splitAt lineFeed (before.bytesAt place).data.toList = old ++ [[]] →
    ∃ new, Text.splitAt lineFeed (after.bytesAt place).data.toList = old ++ new ++ [[]] ∧
      new.map (entryOf? digitLimit depth) = (arrived.flatMap (·.entries)).map some

theorem hasReceived_of_grown {before made after : Files.Tree} {place : Place}
    {arrived : List Sending} (hmade : before.Extends made)
    (h : after.find? place = grown (made.find? place) arrived) :
    HasReceived before after place arrived := by
  have hheld := hmade.bytesAt_eq place
  have happended : arrived ≠ [] → after.find? place = some (.file
      (before.bytesAt place ++ (lines (arrived.flatMap (·.entries))).toUTF8)) := by
    intro hne
    rw [h, ← hheld]
    cases arrived with
    | nil => contradiction
    | cons s arrived => rfl
  refine ⟨?_, happended, ?_⟩
  · rintro rfl bytes
    rw [h]
    exact ⟨hmade.files, hmade.kept⟩
  · intro digitLimit depth old hreadable hold
    -- where nothing arrived there is no line to be read
    by_cases hne : arrived = []
    · subst hne
      have hbytes : after.bytesAt place = before.bytesAt place := by
        rw [← hheld, Files.Tree.bytesAt, h]
        rfl
      exact ⟨[], by simp [hbytes, hold], rfl⟩
    · have hbytes : after.bytesAt place =
          before.bytesAt place ++ (lines (arrived.flatMap (·.entries))).toUTF8 := by
        rw [Files.Tree.bytesAt, happended hne]
        rfl
      rw [hbytes]
      exact splitAt_lines hreadable hold

/-- A world without files, on a day in January and then on the next. -/
def newYear : World where
  files := .empty
  answers := []
  clock := ⟨⟨"2024-01-01", "2024-01-01T23:59:59+00:00"⟩,
    [⟨"2024-01-02", "2024-01-02T00:00:01+00:00"⟩]⟩
  patience := 0

/-- The calls of a session over midnight. -/
def newYearCalls : List Call :=
  [.log (.int 1), .logAccepted [.null], .rotate, .logSummary [.str "\n", .arr []]]

/-- Two halves side by side that make a pair. -/
def splitPair : Json := .str (.ofCodes [0xD800, 0xDC00])

/-- So many letters. -/
def letters (n : Nat) : String := String.ofList (List.replicate n 'a')

/-- The name of a file with a long prefix is too long. -/
theorem fileAt?_letters {n : Nat} (h : Files.Tree.nameLimit ≤ n) (directory : Loose) (day : String)
    (tree : Files.Tree) (hday : '/' ∉ day.toList) :
    tree.fileAt? (Files.join directory (Loose.whole (letters n) ++ Loose.whole (day ++ ".jsonl"))) =
      none := by
  refine Files.Tree.fileAt?_eq_none_of_long ?_ ?_ tree
  · simp [Loose.points, Files.slash, letters, hday]
  · rw [Loose.whole_append_whole, Files.octetsOfPath_whole, Text.octets_append, List.length_append]
    have hletters : (octets (letters n)).length = n := by
      have hletter : 'a'.utf8Size = 1 := rfl
      rw [Text.octets_eq_flatMap, letters, String.toList_ofList, List.length_flatMap]
      simp [hletter]
    have hending : (octets ".jsonl").length = 6 := by decide
    rw [hletters, Text.octets_append, List.length_append, hending]
    omega

/-- The files of `newYear` when a journal is open. -/
def newYearFiles : Files.Tree := (Files.Tree.empty.ensureDirectories "logs").1

/-- An entry whose path leads nowhere is lost. -/
theorem log_of_none {logPrefix : Loose}
    (h : newYearFiles.fileAt? (Files.join "logs" (logPrefix ++ Loose.whole "2024-01-01.jsonl")) =
      none) :
    ∃ w₁ w₂ : World,
      runIn (Session.openJournal "logs" logPrefix) newYear =
        (.ok ⟨"logs", logPrefix, "2024-01-01"⟩, w₁) ∧
      runIn (performAll ⟨"logs", logPrefix, "2024-01-01"⟩ [.log (.int 1)]) w₁ =
        (.ok [false], w₂) ∧
      ∀ place bytes, w₂.files.find? place ≠ some (.file bytes) := by
  obtain ⟨w₂, hrun, hfind⟩ := @runIn_performAll
    { newYear with files := newYearFiles, clock := newYear.clock.tick } newYearFiles "logs"
    logPrefix newYear.clock [.log (.int 1)] rfl (.refl _)
  obtain ⟨s, hsent, hnone⟩ : ∃ s, sendings "logs" logPrefix newYear.clock [.log (.int 1)] =
      [some s] ∧ newYearFiles.fileAt? s.path = none := ⟨_, rfl, h⟩
  rw [hsent] at hrun hfind
  refine ⟨_, w₂, rfl, hrun.trans ?_, fun place bytes hfile => ?_⟩
  · rw [List.map_cons, succeeds, hnone]
    rfl
  · rw [hfind, arrivals_cons_of_ne (by simp [hnone])] at hfile
    -- the directories that were made hold no file
    have hempty := (Files.Tree.extends_ensureDirectories .empty "logs").files hfile
    unfold Files.Tree.find? at hempty
    split at hempty <;> cases hempty

end Journal

end TapeMachine
