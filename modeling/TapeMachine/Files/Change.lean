import TapeMachine.Files.Tree

/-!
# What changed in a tree
-/

namespace TapeMachine.Files.Tree

/-- The tree with an entry at a path, and with directories above it. -/
def plant (tree : Tree) (path : String) (entry : Entry) : Tree :=
  let above := if directoryOf path = "" then tree else (tree.ensureDirectories (directoryOf path)).1
  match above.place path with
  | .ok place => if isOutside place then above else above.put place entry
  | .error _ => above

/-- The entries of a tree that another one does not have as they are, with their places. -/
def changes (before after : Tree) : List (Place × Entry) :=
  after.entries.filter fun (place, entry) => before.find? place ≠ some entry

/-- Names with slashes between them. -/
def joined : List Text.Loose → Text.Loose
  | [] => ""
  | [name] => name
  | name :: rest => name ++ Text.Loose.whole "/" ++ joined rest

/-- The path of a place. -/
def pathOf : Place → Text.Loose
  | .whole "/" :: names => Text.Loose.whole "/" ++ joined names
  | names => joined names

end TapeMachine.Files.Tree
