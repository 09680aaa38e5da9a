import TapeMachine.Proofs.Configuration

/-!
# Evaluations that go together

Two evaluations come to the same verdict if their configurations stay related: from related ones,
both tables end the evaluation alike, or lead to configurations that are related again. The tables
may differ, and so may the tapes, the states and the reasons for which an input is rejected.

The relation may depend on how many iterations are left, so that nothing has to be shown about cells
that the head does not come to.

## Main results

- `Outcome.Together`: outcomes that take two evaluations the same way
- `Table.together_of_lookup`: they do if one table finds what the other one does, in another form
- `Table.evaluate_eq_of_together`: then the verdicts are the same
-/

namespace TapeMachine

/-- The outcomes end two evaluations alike, or lead both on. An evaluation that enters the accepting
state is over, so the configurations need not be related then. -/
inductive Outcome.Together (R : Configuration → Configuration → Prop) : Outcome → Outcome → Prop
  | accepts : Together R .accepts .accepts
  | rejects (why why' : Rejection) : Together R (.rejects why) (.rejects why')
  | faults (move : String) : Together R (.faults move) (.faults move)
  | fires {next next' : Configuration} :
      (next.state = acceptState ↔ next'.state = acceptState) →
      (next.state ≠ acceptState → R next next') → Together R (.fires next) (.fires next')

theorem Outcome.Together.refl (o : Outcome) : o.Together Eq o := by
  cases o with
  | fires next => exact .fires Iff.rfl fun _ => rfl
  | accepts => exact .accepts
  | rejects why => exact .rejects why why
  | faults move => exact .faults move

/-- What is found, with the transition in another form. -/
def Lookup.map (f : Transition → Transition) : Lookup → Lookup
  | .matched t => .matched (f t)
  | .implicitAccept => .implicitAccept
  | .implicitReject => .implicitReject

@[simp] theorem Lookup.map_id (found : Lookup) : found.map id = found := by
  cases found <;> rfl

namespace Table

variable {table other : Table} {c c' : Configuration} {f : Transition → Transition}

/-- If the transitions that are found correspond, so do the look-ups: otherwise the states decide. -/
theorem lookup_eq_map_of_matched_iff {q q' : State} {mark mark' : Mark}
    (hstate : q' = acceptState ↔ q = acceptState)
    (h : ∀ u, other.lookup q' mark' = .matched u ↔
      ∃ t, table.lookup q mark = .matched t ∧ f t = u) :
    other.lookup q' mark' = (table.lookup q mark).map f := by
  by_cases hmatched : ∃ t, table.lookup q mark = .matched t
  · obtain ⟨t, ht⟩ := hmatched
    rw [ht]
    exact (h _).2 ⟨t, ht, rfl⟩
  · have hnone := not_exists.1 hmatched
    have hnone' : ∀ u, other.lookup q' mark' ≠ .matched u := by
      intro u hu
      obtain ⟨t, ht, -⟩ := (h u).1 hu
      exact hnone t ht
    rw [lookup_of_unmatched hnone, lookup_of_unmatched hnone']
    by_cases haccept : q = acceptState
    · simp [haccept, hstate.2 haccept, Lookup.map]
    · have haccept' : q' ≠ acceptState := fun hq => haccept (hstate.1 hq)
      simp [haccept, haccept', Lookup.map]

/-- Transitions that correspond go together from one position of the head, if they have the same
move. -/
theorem together_of_lookup {R : Configuration → Configuration → Prop}
    (hlookup : other.lookup c'.state (c'.tape.read c'.head) =
      (table.lookup c.state (c.tape.read c.head)).map f)
    (hhead : c'.head = c.head) (hmove : ∀ t, (f t).move = t.move)
    (htarget : ∀ t, t.target = acceptState ↔ (f t).target = acceptState)
    (hnext : ∀ t (direction : Direction) position,
      table.lookup c.state (c.tape.read c.head) = .matched t →
      direction.from? c.head = some position → t.target ≠ acceptState →
      R ⟨c.tape.write c.head t.write, position, t.target⟩
        ⟨c'.tape.write c.head (f t).write, position, (f t).target⟩) :
    (table.outcome c).Together R (other.outcome c') := by
  unfold outcome
  rw [hlookup, hhead]
  cases ht : table.lookup c.state (c.tape.read c.head) with
  | implicitAccept => exact .accepts
  | implicitReject => exact .rejects _ _
  | matched t =>
    -- a transition and its image move alike, so one fails where the other does
    have hdirection : (f t).direction? = t.direction? := congrArg Direction.ofLetter? (hmove t)
    dsimp only [Lookup.map]
    rw [hdirection, hmove]
    cases t.direction? with
    | none => exact .faults t.move
    | some direction =>
      dsimp only
      cases hposition : direction.from? c.head with
      | none => exact .rejects _ _
      | some position => exact .fires (htarget t) (hnext t direction position ht hposition)

/-- Evaluations of related configurations come to the same verdict, if outcomes go together. -/
theorem evaluateFrom_eq_of_together {R : Nat → Configuration → Configuration → Prop}
    (htogether : ∀ n c c', R (n + 1) c c' →
      (table.outcome c).Together (R n) (other.outcome c'))
    {n : Nat} (h : R n c c') :
    table.evaluateFrom n c.tape c.head c.state =
      other.evaluateFrom n c'.tape c'.head c'.state := by
  -- induction on the iterations that are left, with the configurations generalised
  induction n generalizing c c' with
  | zero => rfl
  | succ n ih =>
    rw [evaluateFrom_succ, evaluateFrom_succ]
    have ho := htogether n c c' h
    generalize table.outcome c = o, other.outcome c' = o' at ho ⊢
    cases ho with
    | accepts => rfl
    | rejects why why' => rfl
    | faults move => rfl
    | @fires next next' hstate hnext =>
      by_cases haccept : next.state = acceptState
      · simp [haccept, hstate.1 haccept]
      · have haccept' : next'.state ≠ acceptState := fun hc => haccept (hstate.2 hc)
        simp [haccept, haccept', ih (hnext haccept)]

theorem evaluate_eq_of_together {R : Nat → Configuration → Configuration → Prop}
    (htogether : ∀ n c c', R (n + 1) c c' →
      (table.outcome c).Together (R n) (other.outcome c'))
    {input input' : Text.Loose} {bound : Int}
    (hstart : R bound.toNat ⟨.ofInput input, 0, startState⟩ ⟨.ofInput input', 0, startState⟩) :
    table.evaluate input bound = other.evaluate input' bound :=
  evaluateFrom_eq_of_together htogether hstart

end Table

end TapeMachine
