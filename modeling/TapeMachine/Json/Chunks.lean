import TapeMachine.Json.Printer
import TapeMachine.Text.Integer

/-!
# Writing JSON in chunks

A value goes to a file chunk by chunk, so what comes before a chunk that cannot be written is in the
file all the same. There is no chunk for an integer with too many digits, and none for an array or an
object that is nested too deep. What stands in front of an item of an array is in one chunk with the
item, unless that is an array or an object; what stands in front of a field is a chunk of its own.
-/

namespace TapeMachine.Json

/-- Why a chunk cannot be written. -/
inductive WriteError where
  /-- An integer has too many digits. -/
  | longInteger (e : Text.Integer.TooLong)
  /-- An array or an object is nested too deep. -/
  | tooDeep
  deriving DecidableEq, Repr

/-- A chunk of a text, or why there is none. -/
abbrev Chunk := Except WriteError (List Char)

/-- The characters of a chunk. -/
def Chunk.chars : Chunk → List Char
  | .ok cs => cs
  | .error _ => []

/-- Why there is no chunk. -/
def Chunk.error? : Chunk → Option WriteError
  | .ok _ => none
  | .error e => some e

mutual

/-- The chunks of a value behind a text. Arrays and objects may be nested `depth` deep. -/
def chunks (layout : Layout) (k depth : Nat) (front : List Char) : Json → List Chunk
  | .null => [.ok (front ++ chars layout k .null)]
  | .bool b => [.ok (front ++ chars layout k (.bool b))]
  | .int n =>
    if Text.Integer.isWritable n then [.ok (front ++ intChars n)] else [.error (.longInteger ⟨⟩)]
  | .real x => [.ok (front ++ x.chars realSpelling)]
  | .str s => [.ok (front ++ stringChars s)]
  | .arr [] => .ok front :: if depth = 0 then [.error .tooDeep] else [.ok ['[', ']']]
  | .arr (item :: items) =>
    .ok front :: if depth = 0 then [.error .tooDeep] else
      chunks layout (k + 1) (depth - 1) ('[' :: layout.newline (k + 1)) item
        ++ itemChunks layout (k + 1) (depth - 1) items ++ [.ok (layout.newline k ++ [']'])]
  | .obj [] => .ok front :: if depth = 0 then [.error .tooDeep] else [.ok ['\x7b', '\x7d']]
  | .obj ((name, value) :: fields) =>
    .ok front :: if depth = 0 then [.error .tooDeep] else
      .ok ('\x7b' :: layout.newline (k + 1)) :: .ok (stringChars name ++ [':', ' '])
        :: chunks layout (k + 1) (depth - 1) [] value
        ++ fieldChunks layout (k + 1) (depth - 1) fields ++ [.ok (layout.newline k ++ ['\x7d'])]

/-- The chunks of the items behind the first one. -/
def itemChunks (layout : Layout) (k depth : Nat) : List Json → List Chunk
  | [] => []
  | item :: items =>
    chunks layout k depth (layout.separator k) item ++ itemChunks layout k depth items

/-- The chunks of the fields behind the first one. -/
def fieldChunks (layout : Layout) (k depth : Nat) : List (Text.Loose × Json) → List Chunk
  | [] => []
  | (name, value) :: fields =>
    .ok (layout.separator k) :: .ok (stringChars name ++ [':', ' '])
      :: chunks layout k depth [] value ++ fieldChunks layout k depth fields

end

/-- What is written of chunks: all in front of the first one that cannot be. -/
def written (cs : List Chunk) : List Char :=
  (cs.takeWhile fun c => c.error?.isNone).flatMap Chunk.chars

/-- Why not all chunks are written. -/
def stop? (cs : List Chunk) : Option WriteError := cs.findSome? Chunk.error?

end TapeMachine.Json
