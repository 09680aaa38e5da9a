import TapeMachine.Program

/-!
# The bundled program

A program that accepts the palindromes over `a` and `b`: it removes equal symbols from both ends
until at most one is left.
-/

namespace TapeMachine.Sample

/-- The lines of the program. -/
def palindromeLines : List String :=
  ["// Palindrome checker over \x7ba, b\x7d",
    "// Accepts abba, bab, aa and the empty string.",
    "// Syntax: state  read/write,move  next",
    "",
    "// Read the first symbol and remember it by state",
    "q0  a/_,R  q1",
    "q0  b/_,R  q2",
    "q0  _/_,S  ha  // empty input",
    "",
    "// q1: run to the right end, having taken an 'a'",
    "q1 a/a,R q1",
    "q1 b/b,R q1",
    "q1 _/_,L q3",
    "",
    "// q2: run to the right end, having taken a 'b'",
    "q2 a/a,R q2",
    "q2 b/b,R q2",
    "q2 _/_,L q4",
    "",
    "// q3: last symbol must be an 'a'",
    "q3 a/_,L q5",
    "q3 b/b,S hr # mismatch",
    "q3 _/_,S ha # odd length, all matched",
    "",
    "// q4: last symbol must be a 'b'",
    "q4 b/_,L q5",
    "q4 a/a,S hr ; mismatch",
    "q4 _/_,S ha",
    "",
    "// q5: walk back to the left end",
    "q5 a/a,L q5",
    "q5 b/b,L q5",
    "q5 _/_,R q0"]

/-- The text of the program. -/
def palindrome : String := String.join (palindromeLines.map (· ++ "\n"))

/-- The inputs that a suite starts with. -/
def inputs : List String := ["abba", "bab", "aabaab", "aabb"]

end TapeMachine.Sample
