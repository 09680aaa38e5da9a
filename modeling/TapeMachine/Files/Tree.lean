import TapeMachine.Files.Encoding
import TapeMachine.Files.Path
import TapeMachine.Text.Quoted

/-!
# File trees

A tree of files and directories below a working directory, as a value. Every operation walks the
names of a path: each step needs a directory to stand in, `.` stays there and `..` goes up. The
directories above the working directory exist, and nothing is known to be in them. Names and paths
have a greatest length, in octets of their encoding; a name that is longer is refused when it is
looked up. What has another spelling than that of its octets is put into it first, by `passed`.

Operations return a new tree or the reason why they failed; a failed one changes nothing.
-/

namespace TapeMachine.Files

/-- Why an operation on files failed. -/
inductive Cause where
  | notFound
  | exists
  | notDirectory
  | isDirectory
  | nameTooLong
  deriving DecidableEq, Repr

/-- An operation on files that failed. -/
inductive FileError where
  /-- The system refused it. -/
  | refused (cause : Cause) (path : Text.Loose)
  /-- The path cannot be passed to the system. -/
  | unencodable (e : Unencodable)
  /-- The path holds the character that none may hold. -/
  | nul
  /-- Too many directories would have to be made, one inside the other. -/
  | tooDeep
  /-- No open file has the number that stands in place of a path. -/
  | noHandle
  /-- The number that stands in place of a path is negative. -/
  | negativeHandle
  deriving DecidableEq, Repr

/-- The cause with its number. -/
def Cause.message : Cause → String
  | .notFound => "[Errno 2] No such file or directory"
  | .exists => "[Errno 17] File exists"
  | .notDirectory => "[Errno 20] Not a directory"
  | .isDirectory => "[Errno 21] Is a directory"
  | .nameTooLong => "[Errno 36] File name too long"

/-- The failure in words, with the path. -/
def FileError.message : FileError → String
  | .refused cause path => cause.message ++ ": " ++ Text.quoted path
  | .unencodable e => e.message
  | .nul => "embedded null byte"
  | .tooDeep => "maximum recursion depth exceeded"
  | .noHandle => "[Errno 9] Bad file descriptor"
  | .negativeHandle => "negative file descriptor"

/-- The path that is passed to the system. -/
def passed (path : Text.Loose) : Except FileError Text.Loose :=
  match spelling path with
  | .error e => .error (.unencodable e)
  | .ok path => if hasNul path then .error .nul else .ok path

/-- A text is passed as it is. -/
theorem passed_whole (s : String) :
    passed (.whole s) = if hasNul (.whole s) then .error .nul else .ok (.whole s) := rfl

/-- What stands at a place in a tree. -/
inductive Entry where
  | file (bytes : ByteArray)
  | directory

instance : DecidableEq Entry
  | .file a, .file b =>
    if h : a.data = b.data then isTrue (congrArg Entry.file (ByteArray.ext h))
    else isFalse fun e => h (congrArg ByteArray.data (Entry.file.inj e))
  | .file _, .directory => isFalse nofun
  | .directory, .file _ => isFalse nofun
  | .directory, .directory => isTrue rfl

/-- A place: the names that lead there from the working directory. Leading `..` go above it. -/
abbrev Place := List Text.Loose

/-- A file tree: what stands at which place. The working directory itself is not listed. -/
structure Tree where
  entries : List (Place × Entry)
  deriving DecidableEq

namespace Tree

/-- The tree without files. -/
def empty : Tree := ⟨[]⟩

/-- The place at the root of the file system. -/
def rootPlace : Place := ["/"]

/-- Is the place the working directory, one above it, or the root? -/
def isOutside (place : Place) : Bool := place == rootPlace || place.all (· == "..")

/-- What stands at a place, if anything. -/
def find? (tree : Tree) (place : Place) : Option Entry :=
  if isOutside place then some .directory
  else (tree.entries.find? (·.1 == place)).map (·.2)

/-- The entries with one of them set. -/
def putEntry : List (Place × Entry) → Place → Entry → List (Place × Entry)
  | [], place, entry => [(place, entry)]
  | (p, e) :: rest, place, entry =>
    if p = place then (p, entry) :: rest else (p, e) :: putEntry rest place entry

/-- The tree with an entry set. -/
def put (tree : Tree) (place : Place) (entry : Entry) : Tree := ⟨putEntry tree.entries place entry⟩

theorem find?_putEntry (entries : List (Place × Entry)) (place : Place) (entry : Entry)
    (other : Place) :
    (putEntry entries place entry).find? (·.1 == other) =
      if other = place then some (place, entry) else entries.find? (·.1 == other) := by
  induction entries with
  | nil =>
    by_cases h : other = place
    · simp [putEntry, h]
    · simp [putEntry, h, Ne.symm h]
  | cons e rest ih =>
    obtain ⟨p, old⟩ := e
    by_cases hp : p = place
    · subst hp
      by_cases h : other = p
      · simp [putEntry, h]
      · simp [putEntry, h, Ne.symm h]
    · by_cases h : p = other
      · subst h
        simp [putEntry, hp]
      · simp [putEntry, hp, h, ih]

/-- What was put at a place stands there, and all else stays. -/
theorem find?_put (tree : Tree) (place : Place) (entry : Entry) (other : Place) :
    (tree.put place entry).find? other =
      if isOutside other then some .directory
      else if other = place then some entry else tree.find? other := by
  by_cases ho : isOutside other = true
  · simp [find?, ho]
  · by_cases h : other = place <;> simp [find?, put, ho, h, find?_putEntry]

/-- The place above a place. -/
def up (place : Place) : Place :=
  if place == rootPlace then place
  else if place.all (· == "..") then place ++ [Text.Loose.whole ".."]
  else place.dropLast

/-- One step from a place: to itself, up, or to a name in it. -/
def next (place : Place) (name : Text.Loose) : Place :=
  if name = "." then place else if name = ".." then up place else place ++ [name]

/-- The most octets that a name may have. -/
def nameLimit : Nat := 255

/-- The most octets that a path may have. -/
def pathLimit : Nat := 4095

/-- What stands at a place, if the name that it ends with can be looked up. -/
def lookUp (tree : Tree) (place : Place) : Except Cause (Option Entry) :=
  if octetCount (place.getLast?.getD "") ≤ nameLimit then .ok (tree.find? place)
  else .error .nameTooLong

/-- Follows names from a place. Each step needs a directory; the last place is not looked up. -/
def walk (tree : Tree) (place : Place) : List Text.Loose → Except Cause Place
  | [] => .ok place
  | name :: rest =>
    match tree.lookUp place with
    | .ok (some .directory) => walk tree (next place name) rest
    | .ok (some (.file _)) => .error .notDirectory
    | .ok none => .error .notFound
    | .error cause => .error cause

/-- Where the names of a path are followed from. -/
def start (path : Text.Loose) : Place := if isAbsolute path then rootPlace else []

/-- Follows names from where a path starts. The empty path leads nowhere. -/
def follow (tree : Tree) (path : Text.Loose) (names : List Text.Loose) : Except Cause Place :=
  if path = "" then .error .notFound
  else if pathLimit < octetCount path then .error .nameTooLong
  else tree.walk (start path) names

/-- The place that a path leads to. -/
def place (tree : Tree) (path : Text.Loose) : Except Cause Place :=
  tree.follow path (components path)

/-- What a path leads to. A slash at the end asks for a directory. -/
def look (tree : Tree) (path : Text.Loose) : Except Cause Entry := do
  let names := components path
  let place ← tree.follow path
    (if endsWithSlash path then names ++ [Text.Loose.whole "."] else names)
  match ← tree.lookUp place with
  | some entry => pure entry
  | none => .error .notFound

/-- Does the path lead to something? -/
def exists? (tree : Tree) (path : Text.Loose) : Bool :=
  match passed path with
  | .error _ => false
  | .ok path => match tree.look path with
    | .ok _ => true
    | .error _ => false

/-- Does the path lead to something? It is refused if it cannot be looked up. -/
def present? (tree : Tree) (path : Text.Loose) : Except FileError Bool :=
  match passed path with
  | .error _ => .ok false
  | .ok path' => match tree.look path' with
    | .ok _ => .ok true
    | .error .nameTooLong => .error (.refused .nameTooLong path)
    | .error _ => .ok false

/-- Does the path lead to a directory? -/
def isDirectory (tree : Tree) (path : Text.Loose) : Bool :=
  match passed path with
  | .error _ => false
  | .ok path => match tree.look path with
    | .ok .directory => true
    | _ => false

/-- The bytes of a file. -/
def readBytes (tree : Tree) (path : Text.Loose) : Except FileError ByteArray := do
  match tree.look (← passed path) with
  | .ok (.file bytes) => .ok bytes
  | .ok .directory => .error (.refused .isDirectory path)
  | .error cause => .error (.refused cause path)

/-- The place of a file that is to be written, and the bytes it holds if it exists. -/
def openToWrite (tree : Tree) (path : Text.Loose) :
    Except FileError (Place × Option ByteArray) := do
  match tree.place (← passed path) with
  | .error cause => .error (.refused cause path)
  | .ok place =>
    if endsWithSlash path then .error (.refused .isDirectory path)
    else match tree.lookUp place with
      | .ok (some .directory) => .error (.refused .isDirectory path)
      | .ok (some (.file bytes)) => .ok (place, some bytes)
      | .ok none => .ok (place, none)
      | .error cause => .error (.refused cause path)

/-- Writes a file, in place of what it held. -/
def write (tree : Tree) (path : Text.Loose) (bytes : ByteArray) : Except FileError Tree :=
  match tree.openToWrite path with
  | .ok (place, _) => .ok (tree.put place (.file bytes))
  | .error e => .error e

/-- Writes at the end of a file, which is made if it does not exist. -/
def append (tree : Tree) (path : Text.Loose) (bytes : ByteArray) : Except FileError Tree :=
  match tree.openToWrite path with
  | .ok (place, held) => .ok (tree.put place (.file (held.getD .empty ++ bytes)))
  | .error e => .error e

/-- Makes a directory in an existing one. -/
def makeDirectory (tree : Tree) (path : Text.Loose) : Except FileError Tree := do
  match tree.place (← passed path) with
  | .error cause => .error (.refused cause path)
  | .ok place =>
    match tree.lookUp place with
    | .ok (some _) => .error (.refused .exists path)
    | .ok none => .ok (tree.put place .directory)
    | .error cause => .error (.refused cause path)

/-- Makes a directory; it is no failure if there is one already. -/
def ensureDirectory (tree : Tree) (path : Text.Loose) : Except FileError Tree :=
  match tree.makeDirectory path with
  | .ok tree => .ok tree
  | .error (.refused cause path') =>
    if tree.isDirectory path then .ok tree else .error (.refused cause path')
  | .error e => .error e

/-- A path cut in front of its last name; slashes at its end are no name. -/
def splitLast (path : Text.Loose) : Text.Loose × Text.Loose :=
  let (lead, name) := split path
  if name = "" then split lead else (lead, name)

/-- Makes a directory and those above it that do not exist. What was made before a failure stays,
so the tree is returned in any case. That a file stands in the place of a directory above is found
out when the next one is made. `depth` bounds the number of directories. -/
def ensureDirectoriesWithin : (depth : Nat) → Tree → Text.Loose → Tree × Option FileError
  | 0, tree, _ => (tree, some .tooDeep)
  | depth + 1, tree, path =>
    let (lead, name) := splitLast path
    let above : Tree × Option FileError :=
      if lead ≠ "" && name ≠ "" && !tree.exists? lead then ensureDirectoriesWithin depth tree lead
      else (tree, none)
    match above with
    | (tree', some (.refused .exists _)) | (tree', none) =>
      -- a directory made just now is there under the name `.` as well
      if lead ≠ "" && name = "." && !tree.exists? lead then (tree', none)
      else match tree'.ensureDirectory path with
        | .ok tree'' => (tree'', none)
        | .error e => (tree', some e)
    | (tree', some e) => (tree', some e)

/-- The most directories that are made inside each other at once. -/
def depthLimit : Nat := 988

/-- Makes a directory and those above it that do not exist. -/
def ensureDirectories (tree : Tree) (path : Text.Loose) : Tree × Option FileError :=
  ensureDirectoriesWithin depthLimit tree path

end Tree

end TapeMachine.Files
