import TapeMachine.Command.Interactive
import TapeMachine.Proofs.SessionRuns

/-!
# What sessions leave alone

A frame is a relation between worlds that a session keeps whatever it shows, however often it pauses
and reads the clock. Some frames also put up with questions, which take answers, and some with
changes of the files. What a session keeps is found out from its parts, once for all frames.

## Main results

- `Within.bind`, `Within.attempt`, `IsFrame.forIn`: composed sessions keep what their parts keep
- `IsFrame.play`, `IsFrame.loadMachine` and so on: what the choices of the menu keep
- `IsFrame.turn`, `IsFrame.run`: the interactive simulator keeps what puts up with everything
-/

namespace TapeMachine

/-- The question that an event tells of. -/
def Event.question? : Event → Option Question
  | .asked q => some q
  | _ => none

namespace Session

variable {α β γ ε : Type} {R : World → World → Prop} {s : Session α} {f : α → Session β}

/-! ## Frames -/

/-- A relation holds between the worlds before and after a session, however it ends. -/
def Within (R : World → World → Prop) (s : Session α) : Prop := ∀ w, R w (runIn s w).2

theorem Within.of_run (h : Within R s) {w w' : World} {r : Except Fault α}
    (hrun : runIn s w = (r, w')) : R w w' := by
  have hw := h w
  rwa [hrun] at hw

theorem Within.attempt (h : Within R s) (expected : Fault → Bool) :
    Within R (Session.attempt expected s) := by
  intro w
  rw [runIn_attempt]
  cases hrun : runIn s w with
  | mk r w₁ =>
    have hfirst := h.of_run hrun
    cases r with
    | error e => exact hfirst
    | ok a => exact hfirst

/-- What holds across two sessions one after the other; a fault ends the first of them. -/
theorem Within.bind {R₁ R₂ : World → World → Prop} (hs : Within R₁ s) (hf : ∀ a, Within R₂ (f a))
    (hends : ∀ {w w'}, R₁ w w' → R w w') (hgoes : ∀ {w w₁ w'}, R₁ w w₁ → R₂ w₁ w' → R w w') :
    Within R (s >>= f) := by
  intro w
  rw [runIn_bind]
  cases hrun : runIn s w with
  | mk r w₁ =>
    have hfirst := hs.of_run hrun
    -- a fault ends the session in the world that the first part leaves
    cases r with
    | error e => exact hends hfirst
    | ok a => exact hgoes hfirst (hf a w₁)

/-- A relation that shows, pauses and the clock do not disturb. -/
structure IsFrame (R : World → World → Prop) : Prop where
  refl : ∀ w, R w w
  trans : ∀ {w₁ w₂ w₃}, R w₁ w₂ → R w₂ w₃ → R w₁ w₃
  event : ∀ w (e : Event), e.question? = none → R w { w with events := w.events.push e }
  pause : ∀ w, R w { w with pauses := w.pauses + 1 }
  tick : ∀ w, R w { w with clock := w.clock.tick }

/-- Questions do not disturb the relation. -/
def AllowsAsking (R : World → World → Prop) : Prop := ∀ q, Within R (ask q)

/-- Changes of the files do not disturb the relation. -/
def AllowsWriting (R : World → World → Prop) : Prop := ∀ w files, R w { w with files := files }

namespace IsFrame

variable (hR : IsFrame R)
include hR

/-! ## Composed sessions -/

protected theorem pure (a : α) : Within R (pure a : Session α) := hR.refl

protected theorem throw (e : Fault) : Within R (throw e : Session α) := hR.refl

protected theorem get : Within R (get : Session World) := hR.refl

protected theorem ofResult (toFault : ε → Fault) (r : Except ε α) :
    Within R (ofResult toFault r) := by
  cases r with
  | ok a => exact hR.pure a
  | error e => exact hR.throw _

protected theorem bind (hs : Within R s) (hf : ∀ a, Within R (f a)) : Within R (s >>= f) :=
  hs.bind hf (fun h => h) hR.trans

protected theorem map (hs : Within R s) (g : α → β) : Within R (g <$> s) := by
  rw [map_eq_pure_bind]
  exact hR.bind hs fun a => hR.pure _

protected theorem forIn {g : γ → Session Unit} (hg : ∀ x, Within R (g x)) (xs : List γ) :
    Within R (forIn xs () fun x _ => do g x; pure (.yield ())) := by
  -- on the list: a step, and then the loop over the rest
  induction xs with
  | nil => exact hR.pure ()
  | cons x xs ih =>
    rw [List.forIn_cons]
    exact hR.bind (hR.bind (hg x) fun _ => hR.pure _) fun
      | .yield () => ih
      | .done () => hR.pure ()

protected theorem mapM {g : γ → Session α} (hg : ∀ x, Within R (g x)) (xs : List γ) :
    Within R (xs.mapM g) := by
  induction xs with
  | nil => exact hR.pure []
  | cons x xs ih =>
    rw [List.mapM_cons]
    exact hR.bind (hg x) fun _ => hR.bind ih fun _ => hR.pure _

/-! ## Shows, the clock, and files that are read -/

protected theorem emit {e : Event} (he : e.question? = none) : Within R (emit e) :=
  fun w => hR.event w e he

protected theorem say (text : Text.Loose) : Within R (say text) := hR.emit rfl

protected theorem sayPlain (text : Text.Loose) : Within R (sayPlain text) := hR.emit rfl

protected theorem draw (d : Drawing) : Within R (draw d) := hR.emit rfl

protected theorem readClock : Within R readClock := hR.tick

protected theorem readText (path : Text.Loose) : Within R (readText path) :=
  hR.bind hR.get fun _ => hR.ofResult _ _

protected theorem rotateJournal (j : Journal) : Within R (rotateJournal j) :=
  hR.bind hR.readClock fun _ => hR.pure _

/-! ## Questions -/

protected theorem askYesNo (hask : AllowsAsking R) (prompt : String) (default : Bool) :
    Within R (askYesNo prompt default) :=
  hR.bind (hask _) fun _ => hR.pure _

/-! ## Files that are written -/

variable (hwrite : AllowsWriting R)

section Writing
include hwrite

protected theorem setFiles (result : Except Files.FileError Files.Tree) :
    Within R (setFiles result) :=
  hR.bind (hR.ofResult _ _) fun files w => hwrite w files

protected theorem makeDirectories (path : Text.Loose) : Within R (makeDirectories path) := by
  refine hR.bind hR.get fun w => ?_
  dsimp only
  refine hR.bind (fun w => hwrite w _) fun _ => ?_
  split
  · exact hR.throw _
  · exact hR.pure ()

protected theorem saveConfig (config : Config) (path : String) :
    Within R (saveConfig config path) := by
  refine hR.bind hR.get fun w => ?_
  dsimp only
  refine hR.bind (fun w => hwrite w _) fun _ => ?_
  split
  · exact hR.throw _
  · exact hR.pure ()

protected theorem openJournal (directory logPrefix : Text.Loose) :
    Within R (openJournal directory logPrefix) :=
  hR.bind (hR.makeDirectories hwrite _) fun _ => hR.bind hR.readClock fun _ => hR.pure _

protected theorem writeJournal (j : Journal) (channel : Journal.Channel) (entries : List Json) :
    Within R (writeJournal j channel entries) :=
  hR.bind hR.get fun _ => hR.setFiles hwrite _

end Writing

end IsFrame

/-! ## Sessions that keep the files -/

/-- The files stay as they are. -/
def KeepsFiles (w w' : World) : Prop := w'.files = w.files

/-- To keep the files is a frame. -/
theorem keeping : IsFrame KeepsFiles where
  refl _ := rfl
  trans h h' := Eq.trans h' h
  event _ _ _ := rfl
  pause _ := rfl
  tick _ := rfl

theorem keeping_ask : AllowsAsking KeepsFiles := by
  intro q w
  unfold ask
  rw [runIn_get_bind]
  cases w.answers <;> rfl

end Session

namespace Session.IsFrame

open Command

variable {R : World → World → Prop} (hR : IsFrame R)
include hR

/-! ## What the commands share -/

protected theorem showTape (config : Config) (m : Machine) : Within R (showTape config m) :=
  hR.bind (hR.ofResult _ _) fun _ => hR.draw _

protected theorem showStatus (m : Machine) : Within R (showStatus m) :=
  hR.bind (hR.ofResult _ _) fun _ => hR.say _

protected theorem showMachine (config : Config) (m : Machine) : Within R (showMachine config m) :=
  hR.bind (hR.showTape config m) fun _ => hR.showStatus m

protected theorem sayIn (colour : String) (text : Text.Loose) : Within R (sayIn colour text) :=
  hR.say _

protected theorem programText (path : Text.Loose) : Within R (programText path) := by
  unfold programText
  split
  · exact hR.pure _
  · exact hR.readText path

protected theorem compileProgram (m : Machine) {text : Session String} (htext : Within R text) :
    Within R (compileProgram m text) :=
  (hR.bind htext fun _ => hR.ofResult _ _).attempt _

protected theorem askSettings (hask : AllowsAsking R) (config : Config) :
    Within R (editable.mapM fun (key, prompt) => do
      pure (Config.Name.text key.name, ← askSetting config key prompt)) := by
  refine hR.mapM (fun (key, prompt) => hR.bind ?_ fun _ => hR.pure _) _
  unfold askSetting
  split
  · exact hask _
  · exact hR.throw _

/-! ## The interactive simulator -/

protected theorem pauseFor (length : Option Int) : Within R (Simulator.pauseFor length) := by
  cases length with
  | none => exact hR.pure _
  | some length =>
    exact hR.bind hR.pause fun _ => hR.bind (hR.emit (e := .paused length) rfl) fun _ =>
      hR.bind hR.get fun _ => hR.pure _

protected theorem playFrom {present : Machine → Session Unit} {pauseNow : Session PauseEnd}
    (hpresent : ∀ m, Within R (present m)) (hpause : Within R pauseNow) (limit : Nat)
    (m : Machine) : Within R (m.playFrom present pauseNow limit) := by
  -- on the limit: a step shows the machine and pauses, and then the playback may go on
  induction limit generalizing m with
  | zero => exact hR.pure _
  | succ limit ih =>
    rw [Machine.playFrom]
    split
    · exact hR.pure _
    · refine hR.bind (hpresent _) fun _ => ?_
      split
      · refine hR.bind hpause fun pauseEnd => ?_
        cases pauseEnd
        · exact ih _
        all_goals exact hR.pure _
      · exact hR.pure _

protected theorem play (s : Simulator) : Within R s.play := by
  have hplay : ∀ present pauseNow interval limit, (∀ m, Within R (present m)) →
      Within R pauseNow → Within R (s.machine.playOn present pauseNow interval limit) := by
    intro present pauseNow interval limit hpresent hpause
    unfold Machine.playOn
    split
    · exact hR.pure _
    split
    · exact hR.pure _
    · exact hR.playFrom hpresent hpause _ _
  refine hR.bind hR.get fun w => ?_
  -- a playback shows the machine and pauses, and does nothing else
  refine hR.bind (hplay _ _ _ _ (hR.showMachine _) (hR.pauseFor _)) fun (m, ending) => ?_
  dsimp only
  split
  · exact hR.pure _
  · exact hR.pure _
  all_goals exact hR.throw _

protected theorem programNamed (answer : Json) : Within R (Simulator.programNamed answer) := by
  unfold Simulator.programNamed
  split
  · exact hR.programText _
  · split
    · exact hR.throw _
    · exact hR.pure _

protected theorem showDiagram (s : Simulator) : Within R s.showDiagram :=
  hR.bind (hR.sayPlain _) fun _ => hR.pure _

section Asking

variable (hask : AllowsAsking R) (s : Simulator)
include hask

protected theorem choose : Within R s.choose :=
  hR.bind (hR.showMachine _ _) fun _ => hR.bind (hR.forIn (fun _ => hR.say _) _) fun _ => hask _

protected theorem loadInput : Within R s.loadInput := by
  have hmarks : ∀ answer marks, Within R (s.showMarks answer marks) := fun _ _ =>
    hR.bind (hR.showTape _ _) fun _ => hR.throw _
  refine hR.bind (hask _) fun answer => ?_
  split
  · exact hR.pure _
  · exact hmarks _ _
  · exact hmarks _ _
  · exact hR.throw _

protected theorem moveHead : Within R s.moveHead := by
  have hrefuse : Within R (Simulator.moveHead.refuse s) :=
    hR.bind (hR.sayIn _ _) fun _ => hR.pure _
  refine hR.bind (hask _) fun answer => ?_
  split
  · split
    · exact hR.pure _
    · exact hrefuse
  · exact hR.pure _
  · split
    · exact hrefuse
    · exact hR.throw _
  · exact hR.throw _

protected theorem loadMachine : Within R s.loadMachine := by
  refine hR.bind (hask _) fun answer => ?_
  refine hR.bind (hR.compileProgram _ (hR.programNamed answer)) fun outcome => ?_
  cases outcome with
  | error e => exact hR.bind (hR.sayIn _ _) fun _ => hR.bind (hR.sayIn _ _) fun _ => hR.pure _
  | ok m => exact hR.bind (hR.sayIn _ _) fun _ => hR.pure _

end Asking

section Writing

variable (hwrite : AllowsWriting R)
include hwrite

protected theorem logRun (j : Journal) (m : Machine) (source : Json) :
    Within R (Simulator.logRun j m source) :=
  hR.bind hR.readClock fun _ => hR.writeJournal hwrite _ _ _

protected theorem start (config : Config) (path : String) :
    Within R (Simulator.start config path) := by
  refine hR.bind (hR.openJournal hwrite _ _) fun j => ?_
  refine hR.bind (hR.bind (hR.ofResult _ _) fun _ => hR.pure _) fun m => ?_
  refine hR.bind (hR.compileProgram _ (hR.programText _)) fun outcome => ?_
  cases outcome with
  | ok m => exact hR.pure _
  | error e => exact hR.bind (hR.sayIn _ _) fun _ => hR.pure _

variable (hask : AllowsAsking R) (s : Simulator)
include hask

protected theorem runSuite : Within R s.runSuite := by
  refine hR.bind (hask _) fun answer => ?_
  split
  · exact hR.bind (hR.ofResult _ _) fun _ => hR.bind (hR.draw _) fun _ =>
      hR.bind (hR.rotateJournal _) fun _ => hR.bind (hR.writeJournal hwrite _ _ _) fun _ =>
        hR.pure _
  · exact hR.throw _

protected theorem edit : Within R s.edit := by
  have hadopt : ∀ config : Config, Within R (do
      let m ← ofResult .machine (s.machine.setCapacity (some (config.int .maxHistory)))
      pure { s with config := config, machine := m }) := fun _ =>
    hR.bind (hR.ofResult _ _) fun _ => hR.pure _
  refine hR.bind (hR.bind (hR.say _) fun _ => ?_) fun _ => hR.pure _
  refine hR.bind (hR.askSettings hask _) fun answers => ?_
  refine hR.bind ((hR.saveConfig hwrite _ _).attempt _) fun outcome => ?_
  cases outcome with
  | error e => exact hR.bind (hR.sayIn _ _) fun _ => hR.pure _
  | ok _ => exact hR.bind (hadopt _) fun _ => hR.bind (hR.sayIn _ _) fun _ => hR.pure _

protected theorem leave : Within R s.leave := by
  unfold Simulator.leave
  split
  · refine hR.bind (hR.askYesNo hask _ _) fun yes => ?_
    cases yes with
    | true => exact hR.bind (hR.logRun hwrite _ _ _) fun _ => hR.say _
    | false => exact hR.say _
  · exact hR.say _

protected theorem carryOut (choice : Json) : Within R (s.carryOut choice) := by
  unfold Simulator.carryOut
  split
  · exact hR.pure _
  · exact hR.pure _
  · exact hR.map (hR.play s) _
  · exact hR.map (hR.loadInput hask s) _
  · exact hR.map (hR.moveHead hask s) _
  · exact hR.map (hR.loadMachine hask s) _
  · exact hR.map (hR.runSuite hwrite hask s) _
  · exact hR.map (hR.showDiagram s) _
  · exact hR.map (hR.edit hwrite hask s) _
  · exact hR.bind (hR.leave hwrite hask s) fun _ => hR.pure _
  · exact hR.pure _

protected theorem turn : Within R s.turn :=
  hR.bind (hR.choose hask s) (hR.carryOut hwrite hask s)

protected theorem turns (fuel : Nat) : Within R (Simulator.turns fuel s) := by
  induction fuel generalizing s with
  | zero => exact hR.throw _
  | succ fuel ih =>
    refine hR.bind (hR.turn hwrite hask s) fun next => ?_
    cases next with
    | none => exact hR.pure ()
    | some s' => exact ih s'

omit s in
protected theorem run (config : Config) (path : String) :
    Within R (Simulator.run config path) :=
  hR.bind (hR.start hwrite config path) fun s =>
    hR.bind hR.get fun _ => hR.turns hwrite hask s _

end Writing

end Session.IsFrame

end TapeMachine
