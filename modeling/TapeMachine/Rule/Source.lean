import TapeMachine.Rule.Reader
import TapeMachine.Text.Line

/-!
# The rules of a program text

A program text is read line by line. Lines that are blank or hold nothing but a comment carry no
rule; every other line must be one. Rules remember their lines, so messages and skipped lines never
disagree about numbers.
-/

namespace TapeMachine

/-- Does the line carry no rule: is it blank, or nothing but a comment? -/
def isSkippable (line : String) : Bool :=
  let cs := Text.stripChars line.toList
  cs.isEmpty || (Rule.comment? cs).isSome

/-- The lines that carry rules, with their places counted from zero. -/
def ruleLines (text : String) : List (String × Nat) :=
  (Text.lines text).zipIdx.filter fun (line, _) => !isSkippable line

/-- The rules of a program text, in order, or the first line that is no rule. -/
def readRules (text : String) : Except CompileError (List Rule) :=
  (ruleLines text).mapM fun (line, place) => Rule.ofLine line place

end TapeMachine
