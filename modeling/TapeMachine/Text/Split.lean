/-!
# Cutting a text at a mark
-/

namespace TapeMachine.Text

variable {α : Type} [DecidableEq α]

/-- The pieces of a text between the places where a mark stands; there is always at least one. -/
def splitAt (mark : α) : List α → List (List α)
  | [] => [[]]
  | c :: rest =>
    if c = mark then [] :: splitAt mark rest
    else match splitAt mark rest with
      | [] => [[c]]
      | piece :: pieces => (c :: piece) :: pieces

theorem splitAt_ne_nil (mark : α) (cs : List α) : splitAt mark cs ≠ [] := by
  cases cs with
  | nil => simp [splitAt]
  | cons c rest =>
    unfold splitAt
    split
    · simp
    · split <;> simp

end TapeMachine.Text
