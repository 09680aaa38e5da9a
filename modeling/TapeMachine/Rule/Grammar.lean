import TapeMachine.Rule.Reader

/-!
# The grammar of rules

What a rule looks like, said without a scanner: a line without the white space at its ends spells
a rule if it is the rule's parts in order, with the white space, the signs and the comment that the
grammar allows between and behind them.
-/

namespace TapeMachine.Rule

open TapeMachine.Text (isBlank isWord)

/-- White space, possibly none. -/
def Blanks (cs : List Char) : Prop := ∀ c ∈ cs, isBlank c = true

/-- A word: at least one character, all of them word characters. -/
def Word (cs : List Char) : Prop := cs ≠ [] ∧ ∀ c ∈ cs, isWord c = true

/-- A single tape symbol: neither white space nor a slash. -/
def SymbolChar (c : Char) : Prop := isBlank c = false ∧ c ≠ '/'

/-- The signs that open a comment. -/
inductive CommentSign : List Char → Prop
  | slashes : CommentSign ['/', '/']
  | hash : CommentSign ['#']
  | semicolon : CommentSign [';']

/-- What may follow a rule: nothing, or white space, a comment sign and the rest of the line. -/
inductive Tail : List Char → Prop
  | nothing : Tail []
  | comment {gap sign text : List Char} : Blanks gap → CommentSign sign → '\n' ∉ text →
      Tail (gap ++ sign ++ text)

/-- The parts of a rule as they stand in a line. -/
structure Parts where
  source : List Char
  read : Char
  write : Char
  direction : Direction
  target : List Char
  deriving DecidableEq

/-- The characters are a rule with these parts. -/
inductive Spells : List Char → Parts → Prop
  | rule {p : Parts} {gap₁ gap₂ gap₃ gap₄ gap₅ gap₆ tail : List Char} :
      Word p.source → SymbolChar p.read → SymbolChar p.write → Word p.target →
      Blanks gap₁ → gap₁ ≠ [] → Blanks gap₂ → Blanks gap₃ → Blanks gap₄ → Blanks gap₅ →
      Blanks gap₆ → gap₆ ≠ [] → Tail tail →
      Spells (p.source ++ gap₁ ++ [p.read] ++ gap₂ ++ ['/'] ++ gap₃ ++ [p.write] ++ gap₄ ++ [',']
        ++ gap₅ ++ p.direction.letter.toList ++ gap₆ ++ p.target ++ tail) p

/-- The rule made of the parts. -/
def Parts.toRule (p : Parts) (line : Int) : Rule :=
  ⟨String.ofList p.source, String.singleton p.read, String.singleton p.write, p.direction.letter,
    String.ofList p.target, line⟩

end TapeMachine.Rule
