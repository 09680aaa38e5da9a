import TapeMachine.Proofs.InteractiveSession
import TapeMachine.Proofs.ProgramFiles

/-!
# Where the program in the simulator is from

The interactive simulator starts with the program that the configuration names, if it can be loaded.
A program that is loaded later replaces the table of the machine and the name in the configuration
together; one that cannot be loaded replaces neither. So between two turns the configuration names
the path from which the table comes, unless nothing could be loaded so far.

## Main results

- `loadMachine_cases`: a program is loaded under the name that is answered, or nothing changes
- `IsAttributed.turn`: a turn replaces the table and the name together, or neither of them
- `exists_shows_of_menuAfter`: the table always comes from somewhere
-/

namespace TapeMachine.Command

open Session
open Text (Loose)

/-! ## Programs and their paths -/

/-- Where a table comes from: the path of a program, and the program that was found there. The empty
path is that of the bundled program. -/
structure Origin where
  path : Loose
  program : Program

/-- The program at a path. -/
def originAt (files : Files.Tree) (path : Loose) : Option Origin :=
  (Content.ofName files path).program?.map (⟨path, ·⟩)

theorem originAt_of_program {files : Files.Tree} {path : Loose} {p : Program}
    (h : (Content.ofName files path).program? = some p) : originAt files path = some ⟨path, p⟩ := by
  rw [originAt, h]
  rfl

theorem originAt_of_none {files : Files.Tree} {path : Loose}
    (h : (Content.ofName files path).program? = none) : originAt files path = none := by
  rw [originAt, h]
  rfl

/-- The table from an origin; without one it is empty. -/
def tableOf (o : Option Origin) : Table := (o.map (·.program.table)).getD .empty

/-- The path of an origin; without one it is the path that was tried first. -/
def pathOr (first : Loose) (o : Option Origin) : Loose := (o.map (·.path)).getD first

/-! ## Loading -/

namespace Simulator

variable {s s' : Simulator} {w w' : World} {o : Option Origin} {first : Loose}

/-- The path that an answer names. What counts as no names the bundled program, and what else is no
text names none. -/
def pathNamed? : Json → Option Loose
  | .str path => some path
  | answer => if isYes answer then none else some ""

theorem programNamed_of_some {answer : Json} {path : Loose} (h : pathNamed? answer = some path) :
    programNamed answer = programText path := by
  unfold pathNamed? at h
  split at h
  · obtain rfl := Option.some.inj h
    rfl
  · rename_i hnotext
    split at h
    · contradiction
    · rename_i hno
      obtain rfl := Option.some.inj h
      unfold programNamed programText
      rw [if_pos rfl]
      split
      · exact absurd rfl (hnotext _)
      · rw [if_neg hno]

theorem programNamed_of_none {answer : Json} (h : pathNamed? answer = none) :
    programNamed answer = throw (placeFault answer) := by
  unfold pathNamed? at h
  split at h
  · contradiction
  · rename_i hnotext
    split at h
    · rename_i hyes
      unfold programNamed
      split
      · exact absurd rfl (hnotext _)
      · rw [if_pos hyes]
    · contradiction

/-- The configuration holds the path that the answer names. -/
theorem text_set_of_pathNamed {config : Config} {answer : Json} {path : Loose}
    (h : pathNamed? answer = some path) :
    (config.set .machineFile answer).text .machineFile = path := by
  rw [Config.text, Config.value?_set_same]
  unfold pathNamed? at h
  split at h
  · exact Option.some.inj h
  · rename_i hnotext
    split at h
    · contradiction
    · split
      · rename_i htext
        exact absurd (Option.some.inj htext) (hnotext _)
      · exact Option.some.inj h

/-- The answer that counts when a program file is asked for. -/
def fileAnswer (s : Simulator) (answer : Json) : Json :=
  answerOr ((s.config.value? .machineFile).getD (.str "")) answer

/-- What a turn loads: the program under the name that is answered, if it is the choice to load one
and there is one. -/
def loads? (s : Simulator) (w : World) : Option Origin :=
  match w.answers with
  | .str "6" :: answer :: _ => (pathNamed? (s.fileAnswer answer)).bind (originAt w.files)
  | _ => none

theorem loads?_of_load {answer : Json} {rest : List Json}
    (h : w.answers = .str "6" :: answer :: rest) :
    s.loads? w = (pathNamed? (s.fileAnswer answer)).bind (originAt w.files) := by
  unfold loads?
  rw [h]
  rfl

theorem loads?_of_other {answer : Json} {rest : List Json} (h : w.answers = answer :: rest)
    (hother : answer ≠ .str "6") : s.loads? w = none := by
  unfold loads?
  rw [h]
  split
  · rename_i hsix
    exact absurd (List.cons.inj hsix).1 hother
  · rfl

/-- A program is loaded under the name that is answered, or nothing changes. -/
theorem loadMachine_cases (h : runIn s.loadMachine w = (.ok s', w')) :
    ∃ answer rest, w.answers = answer :: rest ∧
      ((∃ path p, pathNamed? (s.fileAnswer answer) = some path ∧
          (Content.ofName w.files path).program? = some p ∧
          s' = { s with
            machine := s.machine.install p
            config := s.config.set .machineFile (s.fileAnswer answer) }) ∨
        (pathNamed? (s.fileAnswer answer)).bind (originAt w.files) = none ∧ s' = s) := by
  unfold loadMachine at h
  obtain ⟨value, w₁, hask, h⟩ := runIn_bind_eq_ok h
  have hfiles : w₁.files = w.files := (keeping_ask _).of_run hask
  obtain ⟨answer, hvalue, hasked⟩ := asks_of_ask hask
  obtain rfl : value = s.fileAnswer answer := hvalue
  refine ⟨answer, w₁.answers, hasked.answers, ?_⟩
  obtain ⟨outcome, w₂, hcompile, h⟩ := runIn_bind_eq_ok h
  -- a fault is told, and then everything stays as it was
  have hkept : ∀ e, outcome = .error e → s' = s := by
    rintro e rfl
    obtain ⟨_, w₃, -, h⟩ := runIn_bind_eq_ok h
    obtain ⟨_, w₄, -, h⟩ := runIn_bind_eq_ok h
    exact (runIn_pure_eq_ok h).1.symm
  cases hpath : pathNamed? (s.fileAnswer answer) with
  | none =>
    rw [programNamed_of_none hpath] at hcompile
    refine .inr ⟨rfl, ?_⟩
    -- what is no path cannot be compiled
    cases outcome with
    | error e => exact hkept e rfl
    | ok m =>
      obtain ⟨source, w₃, hthrow, -⟩ := runIn_bind_eq_ok (runIn_attempt_eq_ok hcompile)
      exact absurd hthrow runIn_throw_ne_ok
  | some path =>
    rw [programNamed_of_some hpath] at hcompile
    obtain ⟨-, hcases⟩ := compileProgram_cases hcompile
    rw [hfiles] at hcases
    rcases hcases with ⟨p, hprogram, rfl⟩ | ⟨hprogram, e, he⟩
    · obtain ⟨_, w₃, -, h⟩ := runIn_bind_eq_ok h
      exact .inl ⟨path, p, rfl, hprogram, (runIn_pure_eq_ok h).1.symm⟩
    · exact .inr ⟨originAt_of_none hprogram, hkept e he⟩

/-! ## Turns -/

/-- The table of the machine comes from an origin, and the configuration holds its path. Without an
origin the machine has no program, and the configuration holds the path that was tried first. -/
structure IsAttributed (first : Loose) (o : Option Origin) (s : Simulator) : Prop where
  table : s.machine.table = tableOf o
  name : s.config.text .machineFile = pathOr first o
  sound : s.machine.IsSound

/-- A choice that loads no program changes neither the table nor the name. -/
theorem IsAttributed.of_changes (h : s.IsAttributed first o) (hchanges : s.Changes s') :
    s'.IsAttributed first o := by
  cases hchanges with
  | worked hm => exact ⟨hm.table_eq.trans h.table, h.name, hm.isSound h.sound⟩
  | listed j inputs => exact ⟨h.table, h.name, h.sound⟩
  | edited hvalid hprogram hcapacity =>
    refine ⟨h.table, ?_, h.sound.resize _⟩
    show Config.text _ .machineFile = _
    rw [Config.text, hprogram]
    exact h.name

/-- A turn replaces the table and the name together, or neither of them. -/
theorem IsAttributed.turn (h : s.IsAttributed first o)
    (hrun : runIn s.turn w = (.ok (some s'), w')) : s'.IsAttributed first ((s.loads? w).or o) := by
  obtain ⟨choice, w₁, hchoose, hcarry⟩ := runIn_bind_eq_ok hrun
  obtain ⟨answer, hchoice, hasked⟩ := asks_of_choose hchoose
  have hfiles : w₁.files = w.files := (keeping.choose keeping_ask s).of_run hchoose
  have hanswers : w.answers = answer :: w₁.answers := hasked.answers
  -- the menu takes the first answer, and a choice to load takes the one behind it
  rcases changes_of_carryOut hcarry with ⟨hsix, hload⟩ | ⟨hother, hchanges⟩
  · obtain ⟨named, later, hnamed, hload⟩ := loadMachine_cases hload
    have hanswer : answer = .str "6" := by
      rw [hchoice] at hsix
      cases answer with
      | null => exact absurd (Loose.whole.inj (Json.str.inj hsix)) (by decide)
      | _ => exact hsix
    rw [hanswer, hnamed] at hanswers
    rw [loads?_of_load hanswers, ← hfiles]
    rcases hload with ⟨path, p, hpath, hprogram, rfl⟩ | ⟨hnone, rfl⟩
    · obtain ⟨source, -, hsource⟩ := program?_ofName_eq_some_iff.1 hprogram
      rw [hpath, Option.bind_some, originAt_of_program hprogram]
      exact ⟨rfl, text_set_of_pathNamed hpath, Machine.isKept_isSound.install hsource h.sound⟩
    · rw [hnone]
      exact h
  · rw [loads?_of_other hanswers fun hsix => hother (by rw [hchoice, hsix]; rfl)]
    exact h.of_changes hchanges

/-- A machine without a program makes no step. -/
theorem IsAttributed.stepCount_eq_zero (h : s.IsAttributed first none) :
    s.machine.stepCount = 0 := by
  -- a step would have led to a node of the graph, and the empty table has none
  have hnodes : s.machine.graph.nodes = [] := by
    rw [h.sound.graph_eq, h.table]
    rfl
  by_contra hsteps
  have hnode := h.sound.located.node (Nat.pos_of_ne_zero hsteps)
  rw [hnodes] at hnode
  contradiction

/-! ## Sessions -/

variable {config : Config} {path : String}

theorem isAttributed_of_start (h : runIn (start config path) w = (.ok s, w')) :
    s.IsAttributed (config.text .machineFile)
      (originAt (w.files.ensureDirectories (config.text .outputDirectory)).1
        (config.text .machineFile)) := by
  unfold start at h
  obtain ⟨j, w₁, hopen, h⟩ := runIn_bind_eq_ok h
  obtain ⟨-, -, rfl⟩ := runIn_openJournal_eq_ok hopen
  obtain ⟨fresh, w₂, hmachine, h⟩ := runIn_bind_eq_ok h
  obtain ⟨c, w₃, hcapacity, hmachine⟩ := runIn_bind_eq_ok hmachine
  obtain ⟨rfl, rfl⟩ := runIn_pure_eq_ok hmachine
  obtain ⟨-, rfl⟩ := runIn_ofResult_eq_ok hcapacity
  dsimp only at h
  -- the directory of the journal is there now, which may stand where the program is looked for
  generalize hfiles : (w.files.ensureDirectories (config.text .outputDirectory)).1 = files at h ⊢
  have hfresh : ((Machine.ofTable .empty c).load (config.text .defaultInput)).IsSound :=
    Machine.isSound_load rfl _
  obtain ⟨outcome, w₄, hcompile, h⟩ := runIn_bind_eq_ok h
  obtain ⟨-, ⟨p, hprogram, rfl⟩ | ⟨hprogram, e, rfl⟩⟩ := compileProgram_cases hcompile
  · obtain ⟨rfl, -⟩ := runIn_pure_eq_ok h
    obtain ⟨source, -, hsource⟩ := program?_ofName_eq_some_iff.1 hprogram
    rw [originAt_of_program hprogram]
    exact ⟨rfl, rfl, Machine.isKept_isSound.install hsource hfresh⟩
  · obtain ⟨_, w₅, -, h⟩ := runIn_bind_eq_ok h
    obtain ⟨rfl, -⟩ := runIn_pure_eq_ok h
    rw [originAt_of_none hprogram]
    exact ⟨rfl, rfl, hfresh⟩

/-- The menu is shown by a simulator whose machine got its program from an origin: at the start, or
in the last turn that loaded one. -/
inductive Shows (config : Config) (path : String) (w : World) :
    Option Origin → Simulator → World → Prop
  | start {s : Simulator} {w' : World} (h : runIn (start config path) w = (.ok s, w')) :
      Shows config path w
        (originAt (w.files.ensureDirectories (config.text .outputDirectory)).1
          (config.text .machineFile)) s w'
  | turn {o : Option Origin} {s s' : Simulator} {w₁ w' : World}
      (hshows : Shows config path w o s w₁) (interruptAt : Option Nat)
      (h : runIn s.turn { w₁ with interruptAt := interruptAt } = (.ok (some s'), w')) :
      Shows config path w ((s.loads? w₁).or o) s' w'

theorem Shows.isAttributed (h : Shows config path w o s w') :
    s.IsAttributed (config.text .machineFile) o := by
  induction h with
  | start hstart => exact isAttributed_of_start hstart
  | turn _ interruptAt hturn ih =>
    have hnext := ih.turn hturn
    exact hnext

/-- The menu is always shown by a simulator whose machine got its program from somewhere. -/
theorem exists_shows_of_menuAfter {interrupts : List (Option Nat)}
    (h : runIn (menuAfter config path interrupts) w = (.ok s, w')) :
    ∃ o, Shows config path w o s w' := by
  obtain ⟨s₀, w₀, hstart, hturns⟩ := runIn_bind_eq_ok h
  have hshows : ∃ o, Shows config path w o s₀ w₀ := ⟨_, .start hstart⟩
  clear hstart h
  -- on the turns: each of them starts where the one before it has shown the menu
  induction interrupts generalizing s₀ w₀ with
  | nil =>
    obtain ⟨rfl, rfl⟩ := runIn_pure_eq_ok hturns
    exact hshows
  | cons interruptAt later ih =>
    obtain ⟨s₁, w₁, hturn, hlater⟩ := runIn_afterTurns_cons_eq_ok hturns
    obtain ⟨o, hshows⟩ := hshows
    exact ih s₁ w₁ hlater ⟨_, .turn hshows interruptAt hturn⟩

end Simulator

end TapeMachine.Command
