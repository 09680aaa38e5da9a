import TapeMachine.Display.Drawing
import TapeMachine.Json.Basic

/-!
# What happens at the console

What a command shows and asks is a list of events. Drawing them on a terminal is left to whoever
runs the command.
-/

namespace TapeMachine

/-- Something that is shown. -/
inductive Item where
  | text (s : Text.Loose)
  | drawing (d : Drawing)
  deriving DecidableEq, Repr

/-- What kind of answer a question asks for. -/
inductive AnswerKind where
  | text
  | integer
  | yesNo
  deriving DecidableEq, Repr

/-- A question, with the answer that counts if none is given, and the answers to choose from if
there are only some. -/
structure Question where
  kind : AnswerKind
  prompt : String
  default : Json
  choices : List String
  deriving BEq, Repr

/-- An event. -/
inductive Event where
  /-- Something is shown; brackets in plain texts are no markup. -/
  | shown (item : Item) (plain : Bool)
  /-- A question is asked, and was answered. -/
  | asked (question : Question)
  /-- A pause is made. -/
  | paused (milliseconds : Int)
  /-- A progress bar is opened, perhaps hidden. -/
  | progress (visible : Bool)
  /-- The bar gets a task. -/
  | task (description : String) (total : Nat)
  /-- A part of the task is done. -/
  | advanced (count : Nat)
  deriving BEq, Repr

end TapeMachine
