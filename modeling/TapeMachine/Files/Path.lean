import TapeMachine.Text.Loose
import TapeMachine.Text.Split

/-!
# Paths

A path is a loose text whose names are separated by slashes. `components` are the names that a walk
through the directories follows; `split` cuts off the last name, and `normal` is the spelling in
which messages about a program file show a path.
-/

namespace TapeMachine.Files

open Text (CodePoint Loose)

/-- What separates names. -/
def slash : CodePoint := .char '/'

/-- The names between the slashes of a path, in order; empty ones mean nothing. -/
def components (path : Loose) : List Loose :=
  ((Text.splitAt slash path.points).filter (!·.isEmpty)).map .ofPoints

/-- Does the path start at the root? -/
def isAbsolute (path : Loose) : Bool := path.points.head? == some slash

/-- Does the path end with a slash? -/
def endsWithSlash (path : Loose) : Bool := path.points.getLast? == some slash

/-- Does the path hold the character that no path may hold? -/
def hasNul (path : Loose) : Bool := path.points.contains (.char (Char.ofNat 0))

/-- A path without the slashes at its end, unless it is all slashes. -/
def dropSlashes (points : List CodePoint) : List CodePoint :=
  if points.all (· == slash) then points else (points.reverse.dropWhile (· == slash)).reverse

/-- A path cut in front of its last name: what leads to the name, and the name, which is empty if
the path ends with a slash. -/
def split (path : Loose) : Loose × Loose :=
  let back := path.points.reverse
  let name := (back.takeWhile (· != slash)).reverse
  let lead := (back.dropWhile (· != slash)).reverse
  (.ofPoints (dropSlashes lead), .ofPoints name)

/-- The directory part of a path. -/
def directoryOf (path : Loose) : Loose := (split path).1

/-- A name inside a directory; a name that starts at the root stands alone. -/
def join (directory name : Loose) : Loose :=
  if isAbsolute name then name
  else if directory = "" || endsWithSlash directory then directory ++ name
  else directory ++ Loose.whole "/" ++ name

/-- What stands in front of the names of a path: nothing, or the root. Exactly two slashes are a
root of their own. -/
def rootOf (path : String) : String :=
  match path.toList with
  | '/' :: '/' :: '/' :: _ => "/"
  | '/' :: '/' :: _ => "//"
  | '/' :: _ => "/"
  | _ => ""

/-- The plain spelling of a path: no empty names and none that stay in place. -/
def normal (path : String) : String :=
  let names := (Text.splitAt '/' path.toList).map String.ofList
  let text := rootOf path ++ "/".intercalate (names.filter fun name => name != "" && name != ".")
  if text = "" then "." else text

end TapeMachine.Files
