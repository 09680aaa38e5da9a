import TapeMachine.Files.Tree
import TapeMachine.Text.Line
import TapeMachine.Text.Utf8

/-!
# Text files

Text files hold UTF-8. When they are read, the line breaks of other systems become line feeds.
-/

namespace TapeMachine.Files

/-- Why a text file cannot be read. -/
inductive TextError where
  | file (e : FileError)
  | encoding (e : Text.Utf8.Malformed)
  deriving DecidableEq, Repr

/-- The reason in words. -/
def TextError.message : TextError → String
  | .file e => e.message
  | .encoding e => e.message

/-- The text that bytes hold. -/
def textOf (bytes : ByteArray) : Except Text.Utf8.Malformed String := do
  pure (String.ofList (Text.plainBreaks (← Text.Utf8.decode bytes).toList))

namespace Tree

/-- The text of a file. -/
def readText (tree : Tree) (path : Text.Loose) : Except TextError String := do
  let bytes ← (tree.readBytes path).mapError .file
  (textOf bytes).mapError .encoding

/-- Writes a text, in place of what the file held. -/
def writeText (tree : Tree) (path : Text.Loose) (text : String) : Except FileError Tree :=
  tree.write path text.toUTF8

/-- Writes a text at the end of a file. -/
def appendText (tree : Tree) (path : Text.Loose) (text : String) : Except FileError Tree :=
  tree.append path text.toUTF8

end Tree

end TapeMachine.Files
