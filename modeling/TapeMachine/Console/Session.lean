import TapeMachine.Console.World
import TapeMachine.Config.Store
import TapeMachine.Journal.Basic

/-!
# Sessions

A session is a computation in the world of a command. It may end in a fault; what it has changed
until then stays changed.
-/

namespace TapeMachine

/-- A computation in a world, which may end in a fault. -/
abbrev Session := ExceptT Fault (StateM World)

namespace Session

/-- Runs a session in a world. -/
def runIn {α : Type} (session : Session α) (world : World) : Except Fault α × World :=
  StateT.run (ExceptT.run session) world

/-- A result of a computation without a world. -/
def ofResult {ε α : Type} (toFault : ε → Fault) : Except ε α → Session α
  | .ok a => pure a
  | .error e => throw (toFault e)

/-- A result in which the expected faults are no faults. -/
def attempted {α : Type} (expected : Fault → Bool) : Except Fault α → Except Fault (Except Fault α)
  | .ok a => .ok (.ok a)
  | .error e => if expected e then .ok (.error e) else .error e

/-- Runs a session whose faults of some kind are no faults for the one who runs it. -/
def attempt {α : Type} (expected : Fault → Bool) (session : Session α) :
    Session (Except Fault α) :=
  ExceptT.mk (attempted expected <$> ExceptT.run session)

/-! ## The console -/

/-- An event happens. -/
def emit (e : Event) : Session Unit := modify fun w => { w with events := w.events.push e }

/-- Shows a text with markup. -/
def say (text : Text.Loose) : Session Unit := emit (.shown (.text text) false)

/-- Shows a text as it stands. -/
def sayPlain (text : Text.Loose) : Session Unit := emit (.shown (.text text) true)

/-- Shows a table. -/
def draw (d : Drawing) : Session Unit := emit (.shown (.drawing d) false)

/-- Writes a line to the standard output. -/
def writeLine (line : Text.Loose) : Session Unit :=
  modify fun w => { w with output := w.output.push line }

/-- The answer that counts. -/
def answerOr (default : Json) : Json → Json
  | .null => default
  | answer => answer

/-- Asks a question. Without an answer left it is not even asked. -/
def ask (question : Question) : Session Json := do
  match (← get).answers with
  | [] => throw (.noAnswer question)
  | answer :: rest =>
    modify fun w => { w with answers := rest }
    emit (.asked question)
    pure (answerOr question.default answer)

/-- Does an answer count as yes? All do but those that stand for nothing. -/
def isYes : Json → Bool
  | .null | .bool false | .int 0 | .str "" | .arr [] | .obj [] => false
  | .real x => !x.isZero
  | _ => true

/-- Asks for yes or no. -/
def askYesNo (prompt : String) (default : Bool) : Session Bool := do
  pure (isYes (← ask ⟨.yesNo, prompt, .bool default, []⟩))

/-! ## The clock -/

/-- Reads the clock. -/
def readClock : Session Reading := do
  let w ← get
  set { w with clock := w.clock.tick }
  pure w.clock.next

/-! ## Files -/

/-- Does a path lead to something? -/
def isPresent (path : String) : Session Bool := do
  ofResult .file ((← get).files.present? path)

/-- The text of a file. -/
def readText (path : Text.Loose) : Session String := do
  ofResult .ofText ((← get).files.readText path)

/-- The files become those of a result. -/
def setFiles (result : Except Files.FileError Files.Tree) : Session Unit := do
  let files ← ofResult .file result
  modify fun w => { w with files := files }

/-- Writes a text, in place of what the file held. -/
def writeText (path text : String) : Session Unit := do
  setFiles ((← get).files.writeText path text)

/-- Makes a directory and those above it that do not exist. -/
def makeDirectories (path : Text.Loose) : Session Unit := do
  let (files, failure) := (← get).files.ensureDirectories path
  modify fun w => { w with files := files }
  match failure with
  | some e => throw (.file e)
  | none => pure ()

/-- Loads a configuration. -/
def loadConfig (path : String) : Session Config := do
  ofResult id (Config.load (← get).files path)

/-- Saves a configuration. -/
def saveConfig (config : Config) (path : String) : Session Unit := do
  let (files, failure) := config.save (← get).files path
  modify fun w => { w with files := files }
  match failure with
  | some e => throw e
  | none => pure ()

/-! ## Journals -/

/-- Opens a journal on this day, in a directory that is made if need be. -/
def openJournal (directory logPrefix : Text.Loose) : Session Journal := do
  makeDirectories directory
  pure ⟨directory, logPrefix, (← readClock).day⟩

/-- The journal on this day. -/
def rotateJournal (j : Journal) : Session Journal := do
  pure (j.rotate (← readClock).day)

/-- Appends entries to a channel of a journal. -/
def writeJournal (j : Journal) (channel : Journal.Channel) (entries : List Json) :
    Session Unit := do
  setFiles (j.write (← get).files channel entries)

variable {α β ε : Type}

/-! ## What sessions do -/

@[simp] theorem runIn_pure (a : α) (w : World) : runIn (pure a) w = (.ok a, w) := rfl

@[simp] theorem runIn_throw (e : Fault) (w : World) :
    runIn (throw e : Session α) w = (.error e, w) := rfl

/-- A session goes on in the world that its first part leaves, unless that ends in a fault. -/
theorem runIn_bind (s : Session α) (f : α → Session β) (w : World) :
    runIn (s >>= f) w =
      match runIn s w with
      | (.ok a, w') => runIn (f a) w'
      | (.error e, w') => (.error e, w') := by
  have h : runIn (s >>= f) w =
      match runIn s w with
      | (r, w') => StateT.run (ExceptT.bindCont f r) w' := rfl
  rw [h]
  cases runIn s w with
  | mk r w' => cases r <;> rfl

@[simp] theorem runIn_get (w : World) : runIn get w = (.ok w, w) := rfl

@[simp] theorem runIn_modify (f : World → World) (w : World) :
    runIn (modify f) w = (.ok (), f w) := rfl

@[simp] theorem runIn_emit (e : Event) (w : World) :
    runIn (emit e) w = (.ok (), { w with events := w.events.push e }) := rfl

@[simp] theorem runIn_ofResult_ok (toFault : ε → Fault) (a : α) (w : World) :
    runIn (ofResult toFault (.ok a)) w = (.ok a, w) := rfl

@[simp] theorem runIn_ofResult_error (toFault : ε → Fault) (e : ε) (w : World) :
    runIn (ofResult toFault (.error e) : Session α) w = (.error (toFault e), w) := rfl

/-- What a session with an expected fault has changed stays changed. -/
theorem runIn_attempt (expected : Fault → Bool) (s : Session α) (w : World) :
    runIn (attempt expected s) w =
      match runIn s w with
      | (.ok a, w') => (.ok (.ok a), w')
      | (.error e, w') => (if expected e then .ok (.error e) else .error e, w') := by
  have h : runIn (attempt expected s) w =
      match runIn s w with
      | (r, w') => (attempted expected r, w') := rfl
  rw [h]
  cases runIn s w with
  | mk r w' => cases r <;> rfl

end Session

end TapeMachine
