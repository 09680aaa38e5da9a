import TapeMachine.Proofs.SessionFrames

/-!
# Questions and answers

A session tells of every question that it asks, and every question takes the next answer. So the
questions and the answers that were taken between two worlds can be read off the worlds.

## Main results

- `Asks.exchanges_eq`: the exchanges are all that was asked and answered
- `Command.Simulator.tallies_run`: in the interactive simulator no answer is taken but by a question
-/

namespace TapeMachine

/-- Is an answer one that a question asks for? Nothing stands for the default. -/
def Question.fits (q : Question) : Json → Bool
  | .null => true
  | .str _ => q.kind = .text
  | .int _ => q.kind = .integer
  | .bool _ => q.kind = .yesNo
  | _ => false

namespace Session

variable {w w' : World}

/-- The questions that were asked between two worlds, with the answers that they took. -/
def exchanges (before after : World) : List (Question × Json) :=
  ((after.events.toList.drop before.events.size).filterMap Event.question?).zip before.answers

/-- Between two worlds questions were asked, and took the next answers. -/
structure Asks (w w' : World) (xs : List (Question × Json)) : Prop where
  answers : w.answers = xs.map Prod.snd ++ w'.answers
  events : ∃ later, w'.events.toList = w.events.toList ++ later ∧
    later.filterMap Event.question? = xs.map Prod.fst

namespace Asks

theorem refl (w : World) : Asks w w [] := ⟨rfl, [], by simp, rfl⟩

theorem trans {w₁ w₂ w₃ : World} {xs ys : List (Question × Json)} (h : Asks w₁ w₂ xs)
    (h' : Asks w₂ w₃ ys) : Asks w₁ w₃ (xs ++ ys) := by
  obtain ⟨later, hlater, hxs⟩ := h.events
  obtain ⟨later', hlater', hys⟩ := h'.events
  refine ⟨?_, later ++ later', ?_, ?_⟩
  · rw [h.answers, h'.answers, List.map_append, List.append_assoc]
  · rw [hlater', hlater, List.append_assoc]
  · rw [List.filterMap_append, hxs, hys, List.map_append]

/-- The exchanges are all that was asked and answered. -/
theorem exchanges_eq {xs : List (Question × Json)} (h : Asks w w' xs) : exchanges w w' = xs := by
  obtain ⟨later, hlater, hxs⟩ := h.events
  have hsize : w.events.size = w.events.toList.length := (Array.length_toList ..).symm
  unfold exchanges
  -- there may be answers left; the zip ends with the last question
  rw [hlater, hsize, List.drop_left, hxs, h.answers, ← List.append_nil (xs.map Prod.fst),
    List.zip_append (by simp), List.zip_nil_left, List.append_nil]
  exact (List.zip_of_prod rfl rfl).symm

/-- An event that is no question asks nothing. -/
theorem of_event {e : Event} (he : e.question? = none) (hanswers : w'.answers = w.answers)
    (hevents : w'.events = w.events.push e) : Asks w w' [] :=
  ⟨hanswers.symm, [e], by rw [hevents, Array.toList_push], by simp [he]⟩

end Asks

/-! ## Sessions that ask nothing -/

variable {α β : Type} {s : Session α} {f : α → Session β}

/-- A session that asks nothing. -/
def Quiet (s : Session α) : Prop := ∀ w, Asks w (runIn s w).2 []

theorem Quiet.asks (h : Quiet s) {r : Except Fault α} (hrun : runIn s w = (r, w')) :
    Asks w w' [] := by
  have hw := h w
  rwa [hrun] at hw

/-- What changes neither the answers nor the events asks nothing. -/
theorem quiet_modify {g : World → World} (hanswers : ∀ w, (g w).answers = w.answers)
    (hevents : ∀ w, (g w).events = w.events) : Quiet (modify g) := fun w =>
  ⟨(hanswers w).symm, [], by simp [hevents w], rfl⟩

/-- To ask nothing is a frame. -/
theorem quiet : IsFrame fun w w' => Asks w w' [] where
  refl := Asks.refl
  trans := Asks.trans
  event _ _ he := Asks.of_event he rfl rfl
  pause := quiet_modify (fun _ => rfl) fun _ => rfl
  tick := quiet_modify (fun _ => rfl) fun _ => rfl

/-- Changes of the files ask nothing. -/
theorem quiet_write : AllowsWriting fun w w' => Asks w w' [] := fun w files =>
  quiet_modify (g := fun w => { w with files := files }) (fun _ => rfl) (fun _ => rfl) w

/-! ## Sessions that ask -/

/-- A session in which no answer is taken but by a question. -/
def Tallies (s : Session α) : Prop := ∀ w, ∃ xs, Asks w (runIn s w).2 xs

theorem Quiet.tallies (h : Quiet s) : Tallies s := fun w => ⟨[], h w⟩

theorem Tallies.asks (h : Tallies s) {r : Except Fault α} (hrun : runIn s w = (r, w')) :
    Asks w w' (exchanges w w') := by
  obtain ⟨xs, hxs⟩ := h w
  rw [hrun] at hxs
  rwa [hxs.exchanges_eq]

/-- A question takes the next answer. -/
theorem asks_of_ask {q : Question} {a : Json} (h : runIn (ask q) w = (.ok a, w')) :
    ∃ answer, a = answerOr q.default answer ∧ Asks w w' [(q, answer)] := by
  unfold ask at h
  rw [runIn_get_bind] at h
  split at h
  · cases congrArg Prod.fst h
  · rename_i answer rest hanswers
    obtain ⟨ha, rfl⟩ := Prod.mk.inj h
    exact ⟨answer, (Except.ok.inj ha).symm, hanswers, [.asked q], Array.toList_push, rfl⟩

/-- That no answer is taken but by a question is a frame. -/
theorem tallying : IsFrame fun w w' => ∃ xs, Asks w w' xs where
  refl w := ⟨[], Asks.refl w⟩
  trans := by
    rintro w₁ w₂ w₃ ⟨xs, hxs⟩ ⟨ys, hys⟩
    exact ⟨xs ++ ys, hxs.trans hys⟩
  event w e he := ⟨[], quiet.event w e he⟩
  pause w := ⟨[], quiet.pause w⟩
  tick w := ⟨[], quiet.tick w⟩

theorem tallying_write : AllowsWriting fun w w' => ∃ xs, Asks w w' xs := fun w files =>
  ⟨[], quiet_write w files⟩

theorem tallying_ask : AllowsAsking fun w w' => ∃ xs, Asks w w' xs := by
  intro q w
  cases hrun : runIn (ask q) w with
  | mk r w' =>
    cases r with
    | ok a =>
      obtain ⟨answer, -, hask⟩ := asks_of_ask hrun
      exact ⟨_, hask⟩
    | error e =>
      unfold ask at hrun
      -- without an answer left a question fails before it is told of
      rw [runIn_get_bind] at hrun
      split at hrun
      · obtain ⟨-, rfl⟩ := Prod.mk.inj hrun
        exact ⟨[], Asks.refl w⟩
      · cases congrArg Prod.fst hrun

end Session

namespace Command.Simulator

open Session

variable (s : Simulator)

theorem tallies_choose : Tallies s.choose := tallying.choose tallying_ask s

theorem tallies_carryOut (choice : Json) : Tallies (s.carryOut choice) :=
  tallying.carryOut tallying_write tallying_ask s choice

theorem tallies_turn : Tallies s.turn := tallying.turn tallying_write tallying_ask s

/-- In the interactive simulator no answer is taken but by a question. -/
theorem tallies_run (config : Config) (path : String) : Tallies (run config path) :=
  tallying.run tallying_write tallying_ask config path

end Command.Simulator

end TapeMachine
