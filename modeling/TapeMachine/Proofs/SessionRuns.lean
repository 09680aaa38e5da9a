import TapeMachine.Console.Session
import TapeMachine.Proofs.FileTree

/-!
# What sessions do

A session is taken apart at its first part; what that does in the world is told by a lemma for each
thing that a command can ask of the world. A loop over a list does what its steps do, one after the
other.

## Main results

- `runIn_bind_of_ok`: a session goes on behind a part that ends well
- `runIn_bind_eq_ok`: a session that ends well has parts that end well
- `runIn_for`: what a loop does whose steps change the world and do nothing else
- `runIn_writeJournal_of_leadsTo`, `runIn_writeJournal_of_none`: entries are written to a file, or
  the world stays as it is
-/

namespace TapeMachine.Session

open Files (Place)
open Text (Loose)

variable {w : World}

theorem runIn_bind_of_ok {α β : Type} {s : Session α} {f : α → Session β} {a : α} {w' : World}
    (h : runIn s w = (.ok a, w')) : runIn (s >>= f) w = runIn (f a) w' := by
  rw [runIn_bind, h]

theorem runIn_get_bind {α : Type} (f : World → Session α) (w : World) :
    runIn (get >>= f) w = runIn (f w) w := rfl

/-! ## Runs that end well -/

section EndsWell

variable {α β ε : Type} {w' : World}

/-- A session that ends well has parts that end well. -/
theorem runIn_bind_eq_ok {s : Session α} {f : α → Session β} {b : β}
    (h : runIn (s >>= f) w = (.ok b, w')) :
    ∃ a w₁, runIn s w = (.ok a, w₁) ∧ runIn (f a) w₁ = (.ok b, w') := by
  rw [runIn_bind] at h
  split at h
  · rename_i a w₁ hs
    exact ⟨a, w₁, hs, h⟩
  · cases congrArg Prod.fst h

theorem runIn_pure_eq_ok {a b : α} (h : runIn (pure a : Session α) w = (.ok b, w')) :
    a = b ∧ w' = w := by
  obtain ⟨ha, hw⟩ := Prod.mk.inj h
  exact ⟨Except.ok.inj ha, hw.symm⟩

theorem runIn_throw_ne_ok {e : Fault} {a : α} :
    runIn (throw e : Session α) w ≠ (.ok a, w') := fun h =>
  absurd (congrArg Prod.fst h) nofun

theorem runIn_map_eq_ok {s : Session α} {f : α → β} {b : β}
    (h : runIn (f <$> s) w = (.ok b, w')) : ∃ a, runIn s w = (.ok a, w') ∧ f a = b := by
  rw [map_eq_pure_bind] at h
  obtain ⟨a, w₁, hs, hpure⟩ := runIn_bind_eq_ok h
  obtain ⟨rfl, rfl⟩ := runIn_pure_eq_ok hpure
  exact ⟨a, hs, rfl⟩

theorem runIn_ofResult_eq_ok {toFault : ε → Fault} {r : Except ε α} {a : α}
    (h : runIn (ofResult toFault r) w = (.ok a, w')) : r = .ok a ∧ w' = w := by
  cases r with
  | ok b =>
    obtain ⟨rfl, rfl⟩ := runIn_pure_eq_ok h
    exact ⟨rfl, rfl⟩
  | error e => exact absurd h runIn_throw_ne_ok

theorem runIn_attempt_eq_ok {expected : Fault → Bool} {s : Session α} {a : α}
    (h : runIn (attempt expected s) w = (.ok (.ok a), w')) : runIn s w = (.ok a, w') := by
  rw [runIn_attempt] at h
  split at h
  · rename_i b w₁ hs
    obtain ⟨hb, rfl⟩ := Prod.mk.inj h
    rw [hs, Except.ok.inj (Except.ok.inj hb)]
  · rename_i e w₁ hs
    -- a fault that is expected comes back as a value, but never as one that ended well
    split at h <;> cases congrArg Prod.fst h

/-- Does a session end well, with such a result in such a world? -/
def endsWith (P : α → World → Bool) : Except Fault α × World → Bool
  | (.ok a, w) => P a w
  | (.error _, _) => false

theorem exists_of_endsWith {s : Session α} {P : α → World → Bool}
    (h : endsWith P (runIn s w) = true) : ∃ a w', runIn s w = (.ok a, w') ∧ P a w' = true := by
  cases hrun : runIn s w with
  | mk r w' =>
    rw [hrun] at h
    cases r with
    | ok a => exact ⟨a, w', rfl, h⟩
    | error e => contradiction

/-- A session ends with a fault and leaves the files as they were. -/
def EndsInFault (s : Session α) (w : World) (message : String) : Prop :=
  ∃ e w', runIn s w = (.error e, w') ∧ e.message = message ∧ w'.files = w.files

/-- Does it? -/
def endsInFault (files : Files.Tree) (message : String) : Except Fault α × World → Bool
  | (.ok _, _) => false
  | (.error e, w) => e.message == message && decide (w.files = files)

theorem endsInFault_of {s : Session α} {message : String}
    (h : endsInFault w.files message (runIn s w) = true) : EndsInFault s w message := by
  cases hrun : runIn s w with
  | mk r w' =>
    rw [hrun] at h
    cases r with
    | ok a => contradiction
    | error e =>
      rw [endsInFault, Bool.and_eq_true, beq_iff_eq, decide_eq_true_eq] at h
      exact ⟨e, w', hrun, h⟩

/-- A session ends with a fault. -/
def Faults (s : Session α) (w : World) : Prop := ∃ e w', runIn s w = (.error e, w')

theorem Faults.bind {s : Session α} (h : Faults s w) (f : α → Session β) :
    Faults (s >>= f) w := by
  obtain ⟨e, w₁, hs⟩ := h
  refine ⟨e, w₁, ?_⟩
  rw [runIn_bind, hs]

/-- What comes behind a session that ends well may end with a fault. -/
theorem faults_bind_of_ok {s : Session α} {f : α → Session β} {a : α}
    (hs : runIn s w = (.ok a, w')) (h : Faults (f a) w') : Faults (s >>= f) w := by
  rwa [Faults, runIn_bind_of_ok hs]

theorem faults_ofResult (toFault : ε → Fault) (e : ε) (w : World) :
    Faults (ofResult toFault (.error e : Except ε α)) w := ⟨toFault e, w, rfl⟩

end EndsWell

/-! ## Questions and faults -/

/-- A question takes the next answer and leaves the files as they are. -/
theorem exists_runIn_ask (q : Question) {answer : Json} {rest : List Json}
    (h : w.answers = answer :: rest) :
    ∃ w', runIn (ask q) w = (.ok (answerOr q.default answer), w') ∧ w'.files = w.files ∧
      w'.events = w.events.push (.asked q) := by
  unfold ask
  rw [runIn_get_bind, h]
  exact ⟨_, rfl, rfl, rfl⟩

/-- An attempt ends as the session does, but for the faults that are expected. -/
theorem runIn_attempt_eq {α : Type} {s : Session α} {r : Except Fault α} {w' : World}
    (h : runIn s w = (r, w')) (expected : Fault → Bool) :
    runIn (attempt expected s) w = (attempted expected r, w') := by
  rw [runIn_attempt, h]
  cases r <;> rfl

/-! ## Loops -/

/-- A loop whose steps change the world and do nothing else. -/
theorem runIn_for {α : Type} {f : α → Session Unit} {g : World → α → World}
    (h : ∀ x w, runIn (f x) w = (.ok (), g w x)) (xs : List α) (w : World) :
    runIn (forIn xs () fun x _ => do f x; pure (.yield ())) w = (.ok (), xs.foldl g w) := by
  induction xs generalizing w with
  | nil => rfl
  | cons x xs ih =>
    rw [List.forIn_cons, runIn_bind, runIn_bind, h]
    exact ih (g w x)

/-- Events happen one after the other. -/
theorem runIn_emitAll {α : Type} (event : α → Event) (xs : List α) (w : World) :
    runIn (forIn xs () fun x _ => do emit (event x); pure (.yield ())) w =
      (.ok (), { w with events := w.events ++ (xs.map event).toArray }) := by
  rw [runIn_for fun x w => runIn_emit (event x) w]
  congr 1
  induction xs generalizing w with
  | nil => simp
  | cons x xs ih => simp [ih]

/-- Lines are written one after the other. -/
theorem runIn_writeLines {α : Type} (line : α → String) (xs : List α) (w : World) :
    runIn (forIn xs () fun x _ => do writeLine (line x); pure (.yield ())) w =
      (.ok (),
        { w with output := w.output ++ (xs.map fun x => Loose.whole (line x)).toArray }) := by
  have hstep : ∀ x w, runIn (writeLine (line x)) w =
      (.ok (), { w with output := w.output.push (Loose.whole (line x)) }) := fun _ _ => rfl
  rw [runIn_for hstep]
  congr 1
  induction xs generalizing w with
  | nil => simp
  | cons x xs ih => simp [ih]

/-! ## The clock and files -/

theorem runIn_readClock (w : World) :
    runIn readClock w = (.ok w.clock.next, { w with clock := w.clock.tick }) := rfl

theorem runIn_readText {path : Loose} {text : String}
    (h : w.files.readText path = .ok text) : runIn (readText path) w = (.ok text, w) := by
  unfold readText
  rw [runIn_get_bind, h]
  rfl

theorem runIn_isPresent {path : String} {b : Bool}
    (h : w.files.present? path = .ok b) : runIn (isPresent path) w = (.ok b, w) := by
  unfold isPresent
  rw [runIn_get_bind, h]
  rfl

theorem runIn_loadConfig {path : String} {config : Config}
    (h : Config.load w.files path = .ok config) :
    runIn (loadConfig path) w = (.ok config, w) := by
  unfold loadConfig
  rw [runIn_get_bind, h]
  rfl

theorem runIn_makeDirectories (path : Loose) (w : World) :
    runIn (makeDirectories path) w =
      ((match (w.files.ensureDirectories path).2 with
        | some e => .error (.file e)
        | none => .ok ()), { w with files := (w.files.ensureDirectories path).1 }) := by
  unfold makeDirectories
  rw [runIn_get_bind]
  dsimp only
  rw [runIn_bind_of_ok (runIn_modify _ w)]
  cases (w.files.ensureDirectories path).2 <;> rfl

/-! ## Journals -/

/-- A journal is opened if its directory is there or can be made. -/
theorem runIn_openJournal {directory logPrefix : Loose}
    (h : (w.files.ensureDirectories directory).2 = none) :
    runIn (openJournal directory logPrefix) w = (.ok ⟨directory, logPrefix, w.clock.next.day⟩,
      { w with files := (w.files.ensureDirectories directory).1, clock := w.clock.tick }) := by
  unfold openJournal
  rw [runIn_bind, runIn_makeDirectories, h]
  rfl

/-- If the directory cannot be made there is no journal. -/
theorem faults_openJournal {directory : Loose} {e : Files.FileError}
    (h : (w.files.ensureDirectories directory).2 = some e) (logPrefix : Loose) :
    Faults (openJournal directory logPrefix) w := by
  have hmake : Faults (makeDirectories directory) w := by
    refine ⟨.file e, { w with files := (w.files.ensureDirectories directory).1 }, ?_⟩
    rw [runIn_makeDirectories, h]
  exact hmake.bind _

theorem runIn_openJournal_eq_ok {directory logPrefix : Loose} {w' : World} {j : Journal}
    (h : runIn (openJournal directory logPrefix) w = (.ok j, w')) :
    (w.files.ensureDirectories directory).2 = none ∧
    j = ⟨directory, logPrefix, w.clock.next.day⟩ ∧
    w' = { w with files := (w.files.ensureDirectories directory).1, clock := w.clock.tick } := by
  cases hmade : (w.files.ensureDirectories directory).2 with
  | some e =>
    unfold openJournal at h
    rw [runIn_bind, runIn_makeDirectories, hmade] at h
    cases congrArg Prod.fst h
  | none =>
    rw [runIn_openJournal hmade] at h
    obtain ⟨hj, hw⟩ := Prod.mk.inj h
    exact ⟨rfl, (Except.ok.inj hj).symm, hw.symm⟩

theorem runIn_rotateJournal (j : Journal) (w : World) :
    runIn (rotateJournal j) w =
      (.ok (j.rotate w.clock.next.day), { w with clock := w.clock.tick }) := rfl

/-- Entries go to the end of the file that the path of the channel leads to. -/
theorem runIn_writeJournal_of_leadsTo {j : Journal} {channel : Journal.Channel}
    {place : Place} (h : w.files.LeadsTo (j.path channel) place) (entries : List Json) :
    runIn (writeJournal j channel entries) w =
      (.ok (), { w with files := w.files.appendAt place (Journal.lines entries).toUTF8 }) := by
  unfold writeJournal setFiles
  rw [runIn_get_bind, Journal.write, Files.Tree.appendText, Files.Tree.append_of_leadsTo h]
  rfl

/-- Without such a file nothing is written. -/
theorem runIn_writeJournal_of_none {j : Journal} {channel : Journal.Channel}
    (h : w.files.fileAt? (j.path channel) = none) (entries : List Json) :
    ∃ e, runIn (writeJournal j channel entries) w = (.error (.file e), w) := by
  obtain ⟨e, he⟩ := Files.Tree.append_of_none h (Journal.lines entries).toUTF8
  refine ⟨e, ?_⟩
  unfold writeJournal setFiles
  rw [runIn_get_bind, Journal.write, Files.Tree.appendText, he]
  rfl

end TapeMachine.Session
