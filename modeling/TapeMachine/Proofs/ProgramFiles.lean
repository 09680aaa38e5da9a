import TapeMachine.Command.Basic
import TapeMachine.Proofs.SessionRuns
import TapeMachine.Proofs.Walks

/-!
# What stands at the place of a program

A program is read, decoded and compiled, and each of this can fail. `Content` lists what may stand
at a path, for whoever looks for a program there; `Content.load` says what loading it comes to.

## Main results

- `runIn_compiled`: reading and compiling what stands at a path comes to what its content says
- `runIn_loadProgram_eq`: so does loading a program that is looked for first
- `runIn_compileProgram_eq`: what the simulator makes of it
-/

namespace TapeMachine.Command

open Files (Tree FileError Cause)
open Session
open Text (Loose)

/-- What stands at a path, for whoever looks for a program there. -/
inductive Content where
  /-- No path: the text cannot be passed to the system. -/
  | unpassable (e : FileError)
  /-- Nothing that could be looked up, since a name or the whole path is too long. -/
  | tooLong
  /-- Nothing. -/
  | missing (cause : Cause)
  | directory
  /-- A file that holds no text. -/
  | malformed (e : Text.Utf8.Malformed)
  /-- A text that is no program. -/
  | refused (e : CompileError)
  | program (p : Program)

namespace Content

/-- What a text is. -/
def ofSource (source : String) : Content :=
  match Program.ofSource source with
  | .ok p => .program p
  | .error e => .refused e

/-- What the octets of a file are. -/
def ofBytes (bytes : ByteArray) : Content :=
  match Files.textOf bytes with
  | .ok source => ofSource source
  | .error e => .malformed e

/-- What stands at a path. -/
def ofPath (files : Tree) (path : Loose) : Content :=
  match Files.passed path with
  | .error e => .unpassable e
  | .ok spelt =>
    match files.look spelt with
    | .ok (.file bytes) => ofBytes bytes
    | .ok .directory => .directory
    | .error .nameTooLong => .tooLong
    | .error cause => .missing cause

/-- What the simulator finds under the name of a program; the empty name means the bundled one. -/
def ofName (files : Tree) (path : Loose) : Content :=
  if path = "" then ofSource Sample.palindrome else ofPath files path

/-- The program, if there is one. -/
def program? : Content → Option Program
  | .program p => some p
  | _ => none

/-- What it comes to if it is read and compiled. -/
def load (path : Loose) : Content → Except Fault Program
  | .unpassable e => .error (.file e)
  | .tooLong => .error (.file (.refused .nameTooLong path))
  | .missing cause => .error (.file (.refused cause path))
  | .directory => .error (.file (.refused .isDirectory path))
  | .malformed e => .error (.encoding e)
  | .refused e => .error (.ofCompile e)
  | .program p => .ok p

/-- What the system says when it is asked whether something is there. -/
def present? (path : Loose) : Content → Except FileError Bool
  | .tooLong => .error (.refused .nameTooLong path)
  | .unpassable _ | .missing _ => .ok false
  | .directory | .malformed _ | .refused _ | .program _ => .ok true

/-- Does the simulator report itself why there is no program? It does so if the system refuses to
open a file, and if a text is no program and that can be said. -/
def isReported : Content → Bool
  | .tooLong | .missing _ | .directory => true
  | .refused e => e.lines.all Text.Integer.isWritable
  | .unpassable _ | .malformed _ | .program _ => false

/-- What it comes to if it is looked for before it is read and compiled. -/
def loadPresent (path : String) : Content → Except Fault Program
  | .unpassable _ | .missing _ => .error (.noProgramFile path)
  | content => content.load path

end Content

/-! ## Commands -/

theorem runIn_withArguments {manual : Manual} {args : List String} {given : Given}
    (h : readArguments manual.switches args = .ok given) (command : Given → Session Ending)
    (w : World) : runIn (withArguments manual args command) w = runIn (command given) w := by
  unfold withArguments
  rw [h]

theorem pathOf_eq {given : Given} {name path : String} (h : given.text? name = some path) :
    pathOf given name = pure path := by
  rw [pathOf, h]

/-! ## Reading and compiling -/

variable {β ε : Type} {w : World}

/-- Something that is made of what a file holds. -/
theorem runIn_readText_bind (path : Loose) (toFault : ε → Fault) (make : String → Except ε β)
    (w : World) :
    runIn (do ofResult toFault (make (← readText path))) w =
      ((w.files.readText path).mapError Fault.ofText >>= fun source =>
        (make source).mapError toFault, w) := by
  unfold readText
  rw [bind_assoc, runIn_get_bind]
  cases w.files.readText path with
  | error e => rfl
  | ok source =>
    rw [runIn_bind_of_ok (runIn_ofResult_ok _ source w)]
    show runIn (ofResult toFault (make source)) w = _
    cases hmade : make source with
    | ok b => simp only [Except.mapError, hmade, bind, Except.bind, runIn_ofResult_ok]
    | error e => simp only [Except.mapError, hmade, bind, Except.bind, runIn_ofResult_error]

theorem compiled_ofSource (path : Loose) (source : String) :
    (Program.ofSource source).mapError Fault.ofCompile = (Content.ofSource source).load path := by
  unfold Content.ofSource
  cases Program.ofSource source <;> rfl

/-- Reading and compiling what stands at a path comes to what its content says. -/
theorem compiled_ofPath (files : Tree) (path : Loose) :
    ((files.readText path).mapError Fault.ofText >>= fun source =>
      (Program.ofSource source).mapError Fault.ofCompile) =
        (Content.ofPath files path).load path := by
  unfold Tree.readText Tree.readBytes Content.ofPath
  cases hpassed : Files.passed path with
  | error e => rfl
  | ok spelt =>
    simp only [bind, Except.bind]
    cases hlook : files.look spelt with
    | error cause => cases cause <;> rfl
    | ok entry =>
      cases entry with
      | directory => rfl
      | file bytes =>
        simp only [Except.mapError, Content.ofBytes]
        cases htext : Files.textOf bytes with
        | error e => rfl
        | ok source => exact compiled_ofSource path source

theorem eq_program_of_program? {content : Content} {p : Program} (h : content.program? = some p) :
    content = .program p := by
  cases content with
  | program q => rw [Option.some.inj h]
  | _ => contradiction

theorem load_eq_ok_iff {content : Content} {path : Loose} {p : Program} :
    content.load path = .ok p ↔ content.program? = some p := by
  constructor
  · intro h
    cases content with
    | program q => rw [← Except.ok.inj h]; rfl
    | _ => contradiction
  · intro h
    rw [eq_program_of_program? h]
    rfl

/-- There is a program under a name if the text there, or the bundled one, is a program. -/
theorem program?_ofName_eq_some_iff {files : Tree} {path : Loose} {p : Program} :
    (Content.ofName files path).program? = some p ↔
      ∃ source, (path = "" ∧ source = Sample.palindrome ∨
          path ≠ "" ∧ files.readText path = .ok source) ∧
        Program.ofSource source = .ok p := by
  unfold Content.ofName
  by_cases hpath : path = ""
  · rw [if_pos hpath, ← @load_eq_ok_iff _ path, ← compiled_ofSource]
    cases hsource : Program.ofSource Sample.palindrome <;> simp [hpath, hsource, Except.mapError]
  · rw [if_neg hpath, ← @load_eq_ok_iff _ path, ← compiled_ofPath]
    cases htext : files.readText path with
    | error e => simp [hpath, Except.mapError, bind, Except.bind]
    | ok source =>
      cases hsource : Program.ofSource source <;>
        simp [hpath, hsource, Except.mapError, bind, Except.bind]

theorem exists_source_of_ofPath {files : Tree} {path : Loose} {p : Program}
    (h : (Content.ofPath files path).program? = some p) :
    ∃ source, Program.ofSource source = .ok p := by
  rw [← @load_eq_ok_iff _ path, ← compiled_ofPath] at h
  obtain ⟨source, -, hsource⟩ := bind_eq_ok h
  cases hp : Program.ofSource source with
  | error e =>
    rw [hp] at hsource
    contradiction
  | ok q =>
    rw [hp] at hsource
    exact ⟨source, by rw [hp, Except.ok.inj hsource]⟩

/-- So does reading and compiling in a session. -/
theorem runIn_compiled (path : Loose) (make : Program → β)
    {compile : String → Except CompileError β}
    (hcompile : ∀ source, compile source = (Program.ofSource source).map make) (w : World) :
    runIn (do ofResult .ofCompile (compile (← readText path))) w =
      (((Content.ofPath w.files path).load path).map make, w) := by
  rw [runIn_readText_bind, ← compiled_ofPath]
  cases (w.files.readText path).mapError Fault.ofText with
  | error e => rfl
  | ok source =>
    simp only [bind, Except.bind, hcompile]
    cases Program.ofSource source <;> rfl

/-! ## Programs that are looked for first -/

theorem present?_eq (files : Tree) (path : Loose) :
    files.present? path = (Content.ofPath files path).present? path := by
  have hbytes : ∀ bytes, (Content.ofBytes bytes).present? path = .ok true := by
    intro bytes
    unfold Content.ofBytes
    cases Files.textOf bytes with
    | error e => rfl
    | ok source =>
      dsimp only
      unfold Content.ofSource
      cases Program.ofSource source <;> rfl
  -- both pass the path and look for it, in this order
  unfold Tree.present? Content.ofPath
  cases hpassed : Files.passed path with
  | error e => rfl
  | ok spelt =>
    dsimp only
    cases hlook : files.look spelt with
    | error cause => cases cause <;> rfl
    | ok entry =>
      cases entry with
      | directory => rfl
      | file bytes => exact (hbytes bytes).symm

/-- A program is loaded from its plain path. -/
theorem runIn_loadProgram_eq (path : String) (w : World) :
    runIn (loadProgram path) w =
      ((Content.ofPath w.files (Files.normal path)).loadPresent (Files.normal path), w) := by
  have hcompile : ∀ source, Program.ofSource source = (Program.ofSource source).map id := by
    intro source
    cases Program.ofSource source <;> rfl
  have hread := runIn_compiled (Loose.whole (Files.normal path)) id hcompile w
  have hpresent : runIn (isPresent (Files.normal path)) w =
      (((Content.ofPath w.files (Files.normal path)).present? (Files.normal path)).mapError
        Fault.file, w) := by
    unfold isPresent
    rw [runIn_get_bind, present?_eq]
    cases (Content.ofPath w.files (Files.normal path)).present? (Files.normal path) <;> rfl
  unfold loadProgram
  dsimp only
  rw [runIn_bind, hpresent]
  -- without a file the compiler is not asked
  cases hcontent : Content.ofPath w.files (Files.normal path) with
  | unpassable e => rfl
  | tooLong => rfl
  | missing cause => rfl
  | directory =>
    rw [hcontent] at hread
    exact hread
  | malformed e =>
    rw [hcontent] at hread
    exact hread
  | refused e =>
    rw [hcontent] at hread
    exact hread
  | program p =>
    rw [hcontent] at hread
    exact hread

/-! ## Programs of the simulator -/

theorem compile_eq_map (m : Machine) (source : String) :
    m.compile source = (Program.ofSource source).map m.install := by
  unfold Machine.compile
  cases Program.ofSource source <;> rfl

/-- The machine gets the program that it is to get, or the fault comes back that keeps it from that;
a fault that is not foreseen ends the session. -/
theorem runIn_compileProgram_eq (m : Machine) (path : Loose) (w : World) :
    runIn (compileProgram m (programText path)) w =
      (attempted (fun e => e.isRefusal || e.isCompile)
        (((Content.ofName w.files path).load path).map m.install), w) := by
  have hload : runIn (do ofResult .ofCompile (m.compile (← programText path))) w =
      (((Content.ofName w.files path).load path).map m.install, w) := by
    unfold programText Content.ofName
    split
    · rw [pure_bind, compile_eq_map, ← compiled_ofSource]
      cases Program.ofSource Sample.palindrome <;> rfl
    · exact runIn_compiled path m.install (compile_eq_map m) w
  unfold compileProgram
  rw [runIn_attempt, hload]
  cases ((Content.ofName w.files path).load path).map m.install <;> rfl

/-- A path that cannot be passed to the system is not refused by it. -/
theorem isRefusal_of_ofName {files : Tree} {path : Loose} {e : FileError}
    (h : Content.ofName files path = .unpassable e) : (Fault.file e).isRefusal = false := by
  have hpassed : Files.passed path = .error e → (Fault.file e).isRefusal = false := by
    intro hpassed
    unfold Files.passed at hpassed
    split at hpassed
    · obtain rfl := Except.error.inj hpassed
      rfl
    · split at hpassed
      · obtain rfl := Except.error.inj hpassed
        rfl
      · contradiction
  have hsource : ∀ source, Content.ofSource source ≠ .unpassable e := by
    intro source
    unfold Content.ofSource
    split <;> nofun
  -- only a path that is not passed has this content
  unfold Content.ofName at h
  split at h
  · exact absurd h (hsource _)
  · unfold Content.ofPath at h
    split at h
    · rename_i hp
      obtain rfl := Content.unpassable.inj h
      exact hpassed hp
    · split at h
      · unfold Content.ofBytes at h
        split at h
        · exact absurd h (hsource _)
        · contradiction
      all_goals contradiction

/-- Without a program there is a fault, which the simulator foresees if it reports the case. -/
theorem exists_fault_of_ofName {files : Tree} {path : Loose}
    (h : (Content.ofName files path).program? = none) :
    ∃ e, (Content.ofName files path).load path = .error e ∧
      (e.isRefusal || e.isCompile) = (Content.ofName files path).isReported := by
  cases hcontent : Content.ofName files path with
  | unpassable e => exact ⟨_, rfl, by rw [isRefusal_of_ofName hcontent]; rfl⟩
  | tooLong => exact ⟨_, rfl, rfl⟩
  | missing cause => exact ⟨_, rfl, rfl⟩
  | directory => exact ⟨_, rfl, rfl⟩
  | malformed e => exact ⟨_, rfl, rfl⟩
  | refused e =>
    -- a message with a number that is too long to be written cannot be shown
    refine ⟨.ofCompile e, rfl, ?_⟩
    show _ = e.lines.all Text.Integer.isWritable
    unfold Fault.ofCompile
    cases e.lines.all Text.Integer.isWritable <;> rfl
  | program p =>
    rw [hcontent] at h
    contradiction

/-- Without a program the fault comes back if it is to be reported, and else ends the session. -/
theorem runIn_compileProgram_of_none (m : Machine) {path : Loose}
    (h : (Content.ofName w.files path).program? = none) :
    ∃ e, runIn (compileProgram m (programText path)) w =
      (if (Content.ofName w.files path).isReported then .ok (.error e) else .error e, w) := by
  obtain ⟨e, he, hreported⟩ := exists_fault_of_ofName h
  refine ⟨e, ?_⟩
  rw [runIn_compileProgram_eq, he, ← hreported]
  rfl

theorem runIn_compileProgram_of_program (m : Machine) {path : Loose} {p : Program}
    (h : (Content.ofName w.files path).program? = some p) :
    runIn (compileProgram m (programText path)) w = (.ok (.ok (m.install p)), w) := by
  rw [runIn_compileProgram_eq, eq_program_of_program? h]
  rfl

/-- If there is an outcome, it is the machine with the program, or the fault that there is none. -/
theorem compileProgram_cases {m : Machine} {path : Loose} {outcome : Except Fault Machine}
    {w' : World} (h : runIn (compileProgram m (programText path)) w = (.ok outcome, w')) :
    w' = w ∧ ((∃ p, (Content.ofName w.files path).program? = some p ∧ outcome = .ok (m.install p)) ∨
      (Content.ofName w.files path).program? = none ∧ ∃ e, outcome = .error e) := by
  cases hprogram : (Content.ofName w.files path).program? with
  | none =>
    obtain ⟨e, he⟩ := runIn_compileProgram_of_none m hprogram
    rw [he] at h
    obtain ⟨houtcome, rfl⟩ := Prod.mk.inj h
    split at houtcome
    · exact ⟨rfl, .inr ⟨rfl, e, (Except.ok.inj houtcome).symm⟩⟩
    · contradiction
  | some p =>
    rw [runIn_compileProgram_of_program m hprogram] at h
    obtain ⟨houtcome, rfl⟩ := Prod.mk.inj h
    exact ⟨rfl, .inl ⟨p, rfl, (Except.ok.inj houtcome).symm⟩⟩

end TapeMachine.Command
