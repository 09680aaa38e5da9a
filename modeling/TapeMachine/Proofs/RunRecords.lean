import TapeMachine.Journal.Entry
import TapeMachine.Proofs.Configuration
import TapeMachine.Proofs.JsonRoundTrip

/-!
# What the record of a run tells

A record is an object that holds, under fixed names, how a run ended. It can be read back if its
integers are short enough and its texts hold no halves that could be taken for a character. On an
input without halves no run makes any, since programs hold none.

## Main results

- `Machine.IsWhole.run`: a run that starts without halves ends without them
- `Journal.tellsRun_runEntry`: the fields of a record
- `Journal.readable_runEntry`: a record of such a run is read back
-/

namespace TapeMachine

open Text (CodePoint Loose)

/-! ## Texts without halves -/

namespace Text.Loose

/-- The text holds no halves. -/
def IsWhole (t : Loose) : Prop := ∃ s : String, t = whole s

theorem isWhole_whole (s : String) : (whole s).IsWhole := ⟨s, rfl⟩

theorem IsWhole.append {t u : Loose} (ht : t.IsWhole) (hu : u.IsWhole) : (t ++ u).IsWhole := by
  obtain ⟨s, rfl⟩ := ht
  obtain ⟨s', rfl⟩ := hu
  exact ⟨s ++ s', whole_append_whole s s'⟩

theorem isWhole_ofPoints_chars (cs : List Char) : (ofPoints (cs.map .char)).IsWhole := by
  have hchars := ofPointsFrom_chars [] cs []
  rw [List.append_nil] at hchars
  exact ⟨_, hchars⟩

theorem isWhole_join {ts : List Loose} (h : ∀ t ∈ ts, t.IsWhole) : (join ts).IsWhole := by
  have hchars : ∃ cs : List Char, ts.flatMap points = cs.map .char := by
    induction ts with
    | nil => exact ⟨[], rfl⟩
    | cons t ts ih =>
      obtain ⟨ht, hts⟩ := List.forall_mem_cons.1 h
      obtain ⟨s, rfl⟩ := ht
      obtain ⟨cs, hcs⟩ := ih hts
      refine ⟨s.toList ++ cs, ?_⟩
      rw [List.flatMap_cons, hcs, List.map_append]
      rfl
  obtain ⟨cs, hcs⟩ := hchars
  rw [join, hcs]
  exact isWhole_ofPoints_chars cs

theorem IsWhole.settled {t : Loose} (h : t.IsWhole) : Json.Settled t.points := by
  obtain ⟨s, rfl⟩ := h
  exact Json.settled_whole s

end Text.Loose

open Text.Loose (isWhole_whole)

/-! ## Runs without halves -/

namespace Tape

/-- No cell holds a half. -/
def IsWhole (tape : Tape) : Prop := ∀ i, (tape.read i).IsWhole

theorem IsWhole.write {tape : Tape} (h : tape.IsWhole) (i : Nat) {mark : Mark}
    (hmark : mark.IsWhole) : (tape.write i mark).IsWhole := by
  intro j
  rw [read_write]
  split
  · exact hmark
  · exact h j

theorem isWhole_ofInput (input : String) : (ofInput (Loose.whole input)).IsWhole := by
  intro i
  unfold ofInput
  rw [read_ofMarks]
  cases hmark : (marksOf (Loose.whole input))[i]? with
  | none => exact isWhole_whole blank
  | some mark =>
    have hmem := List.mem_of_getElem? hmark
    unfold marksOf at hmem
    obtain ⟨p, hp, rfl⟩ := List.mem_map.1 hmem
    obtain ⟨c, -, rfl⟩ := List.mem_map.1 hp
    exact Loose.isWhole_ofPoints_chars [c]

theorem IsWhole.contents {tape : Tape} (h : tape.IsWhole) : tape.contents.IsWhole := by
  unfold Tape.contents Tape.marks
  apply Loose.isWhole_join
  intro mark hmark
  obtain ⟨i, -, rfl⟩ := List.mem_map.1 hmark
  exact h i

end Tape

theorem Rejection.isWhole_message {state : State} {mark : Mark} (h : mark.IsWhole) :
    (Rejection.noTransition state mark).message.IsWhole := by
  have hstate := (isWhole_whole "No transition for (").append (isWhole_whole state)
  exact ((hstate.append (isWhole_whole ", ")).append h).append (isWhole_whole ")")

namespace Machine

variable {m : Machine}

/-- Nothing that the machine holds or says has halves in it. -/
structure IsWhole (m : Machine) : Prop where
  tape : m.tape.IsWhole
  lastError : ∀ why, m.lastError = some why → why.message.IsWhole

theorem isWhole_load (m : Machine) (input : String) : (m.load (Loose.whole input)).IsWhole :=
  ⟨Tape.isWhole_ofInput input, nofun⟩

/-- Why a machine rejects is said with what it reads. -/
theorem isWhole_message_of_rejects {why : Rejection} (h : m.tape.IsWhole)
    (hwhy : m.table.outcome m.configuration = .rejects why) : why.message.IsWhole := by
  unfold Table.outcome at hwhy
  split at hwhy
  · contradiction
  · obtain rfl := Outcome.rejects.inj hwhy
    exact Rejection.isWhole_message (h m.head)
  · split at hwhy
    · contradiction
    · split at hwhy
      · obtain rfl := Outcome.rejects.inj hwhy
        exact isWhole_whole _
      · contradiction

theorem IsWhole.step (h : m.IsWhole) : m.step.IsWhole := by
  rw [step_eq]
  split
  · exact h
  · split
    · exact ⟨h.tape, h.lastError⟩
    · rename_i why hwhy
      refine ⟨h.tape, fun why' hwhy' => ?_⟩
      obtain rfl := Option.some.inj hwhy'
      exact isWhole_message_of_rejects h.tape hwhy
    · exact ⟨h.tape, h.lastError⟩
    · rename_i next hnext
      obtain ⟨t, direction, position, -, -, -, rfl⟩ := Table.exists_of_fires hnext
      exact ⟨h.tape.write m.head (isWhole_whole t.write), h.lastError⟩

theorem IsWhole.run (h : m.IsWhole) (bound : Int) : (m.run bound).machine.IsWhole :=
  runFrom_induction (P := IsWhole) (fun _ hm => hm.step) 0 bound.toNat h

/-- A step does not put the head anywhere by a truth value. -/
theorem headAsTruth_step (h : m.headAsTruth = false) : m.step.headAsTruth = false := by
  rw [step_eq]
  split
  · exact h
  · split
    · exact h
    · exact h
    · exact h
    · rfl

theorem headAsTruth_run (h : m.headAsTruth = false) (bound : Int) :
    (m.run bound).machine.headAsTruth = false :=
  runFrom_induction (P := fun m => m.headAsTruth = false) (fun _ hm => headAsTruth_step hm) 0
    bound.toNat h

end Machine

/-! ## Records -/

/-- The value of a field of an object. -/
def Json.field? (name : String) : Json → Option Json
  | .obj fields => Fields.get? fields (Loose.whole name)
  | _ => none

namespace Journal

/-- A record tells how a machine came to stand where it stands. -/
structure TellsRun (entry : Json) (m : Machine) : Prop where
  input : entry.field? "input" = some (.str m.input)
  status : entry.field? "status" = some (.str m.status.name)
  state : entry.field? "state" = some (.str m.state)
  head : entry.field? "head" = some (.int m.head)
  steps : entry.field? "steps" = some (.int m.stepCount)
  error : entry.field? "error" = some (optionalText (m.lastError.map (·.message)))
  tape : entry.field? "tape" = some (.str m.tape.contents)

theorem field?_source_runEntry (m : Machine) (source : Json) (stamp : String) :
    (runEntry m source stamp).field? "source" = some source := rfl

theorem tellsRun_runEntry {m : Machine} (hm : m.headAsTruth = false) (source : Json)
    (stamp : String) : TellsRun (runEntry m source stamp) m := by
  have hhead : headValue m = .int m.head := by
    unfold headValue positionValue
    rw [hm]
    rfl
  refine ⟨rfl, rfl, rfl, ?_, rfl, rfl, rfl⟩
  rw [← hhead]
  rfl

theorem readable_optionalText {text : Option Loose} (h : ∀ s, text = some s → s.IsWhole)
    (digitLimit depth : Nat) : (optionalText text).Readable digitLimit depth := by
  cases text with
  | none => exact .null
  | some s => exact .str (h s rfl).settled

/-- A record is read back, if the input and the name of the program hold no halves, and the head and
the steps are told in few enough digits. -/
theorem readable_runEntry {m : Machine} (hm : m.headAsTruth = false) (hwhole : m.IsWhole)
    (hinput : m.input.IsWhole) {source : Loose} (hsource : source.IsWhole) (stamp : String)
    {digitLimit depth : Nat} (hhead : (Nat.toDigits 10 m.head).length ≤ digitLimit)
    (hsteps : (Nat.toDigits 10 m.stepCount).length ≤ digitLimit) :
    (runEntry m (.str source) stamp).Readable digitLimit (depth + 1) := by
  have hvalue : headValue m = .int m.head := by
    unfold headValue positionValue
    rw [hm]
    rfl
  have herror : ∀ s, m.lastError.map (·.message) = some s → s.IsWhole := by
    intro s hs
    obtain ⟨why, hwhy, rfl⟩ := Option.map_eq_some_iff.1 hs
    exact hwhole.lastError why hwhy
  refine @Json.Readable.ofNames _ _ [("timestamp", .str stamp), ("source", .str source),
    ("input", .str m.input), ("status", .str m.status.name), ("state", .str m.state),
    ("head", headValue m), ("steps", .int m.stepCount),
    ("error", optionalText (m.lastError.map (·.message))), ("tape", .str m.tape.contents)]
    (show ["timestamp", "source", "input", "status", "state", "head", "steps", "error",
      "tape"].Nodup by decide) ?_
  simp only [List.forall_mem_cons, hvalue]
  exact ⟨.str (Json.settled_whole _), .str hsource.settled, .str hinput.settled,
    .str (Json.settled_whole _), .str (Json.settled_whole _), .int hhead, .int hsteps,
    readable_optionalText herror _ _, .str hwhole.tape.contents.settled, nofun⟩

end Journal

end TapeMachine
