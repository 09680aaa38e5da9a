import TapeMachine.Config.Basic

/-!
# Overrides

What a configuration file holds is laid over the defaults. That is an object as a rule; a list of
pairs does as well, where a pair is a list, a text or an object of length two.
-/

namespace TapeMachine.Config

/-- Why a value cannot be laid over a configuration. -/
inductive Unmergeable where
  /-- The value has no items. -/
  | noItems (value : Json)
  /-- The item at a place has no items of its own. -/
  | noPair (place : Nat)
  /-- The item at a place has a length other than two. -/
  | wrongLength (place length : Nat)
  /-- A list or an object stands where a name should. -/
  | badName (value : Json)
  deriving BEq, Repr

/-- The refusal in words. -/
def Unmergeable.message : Unmergeable → String
  | .noItems value => "'" ++ value.kindName ++ "' object is not iterable"
  | .noPair place =>
    "cannot convert dictionary update sequence element #" ++ toString place ++ " to a sequence"
  | .wrongLength place length =>
    "dictionary update sequence element #" ++ toString place ++ " has length " ++ toString length
      ++ "; 2 is required"
  | .badName value => "unhashable type: '" ++ value.kindName ++ "'"

/-- The items of a value that has some. -/
def items? : Json → Option (List Json)
  | .arr items => some items
  | .str s => some (s.points.map fun p => .str (.ofPoints [p]))
  | .obj fields => some (fields.map fun (name, _) => .str name)
  | _ => none

/-- The name that a value is. -/
def nameOf : Json → Except Unmergeable Name
  | .null => .ok .null
  | .bool b => .ok (.bool b)
  | .int n => .ok (.int n)
  | .real x => .ok (.real x)
  | .str s => .ok (.text s)
  | .arr items => .error (.badName (.arr items))
  | .obj fields => .error (.badName (.obj fields))

/-- The entry that an item stands for. -/
def pairOf (item : Json) (place : Nat) : Except Unmergeable (Name × Json) :=
  match items? item with
  | none => .error (.noPair place)
  | some [name, value] => do pure (← nameOf name, value)
  | some items => .error (.wrongLength place items.length)

/-- The entries that a value stands for. A name may stand in several of them. -/
def entriesOf (value : Json) : Except Unmergeable Config :=
  match value with
  | .obj fields => .ok (ofFields fields)
  | value =>
    match items? value with
    | none => .error (.noItems value)
    | some items => items.zipIdx.mapM fun (item, place) => pairOf item place

/-- The configuration with a value laid over it. -/
def overlay (config : Config) (value : Json) : Except Unmergeable Config := do
  pure (config.putAll (← entriesOf value))

end TapeMachine.Config
