import TapeMachine.Binary64.Basic
import TapeMachine.Entries
import TapeMachine.Text.Loose

/-!
# JSON values

Integers and numbers with a fraction or an exponent are kept apart. The fields of an object stay in
the order in which their names first appeared; a name that appears again gives its field the new
value and leaves it in its place. Strings and names are loose texts.
-/

namespace TapeMachine

/-- A JSON value. -/
inductive Json where
  | null
  | bool (b : Bool)
  | int (n : Int)
  | real (x : Binary64)
  | str (s : Text.Loose)
  | arr (items : List Json)
  | obj (fields : List (Text.Loose × Json))
  deriving Repr, BEq

namespace Json

/-- The fields of an object, in order. -/
abbrev Fields := List (Text.Loose × Json)

namespace Fields

/-- The value of a field. -/
def get? (fields : Fields) (name : Text.Loose) : Option Json := Entries.get? id fields name

/-- Gives a field a value; a new field goes to the end. -/
def put (fields : Fields) (name : Text.Loose) (value : Json) : Fields :=
  Entries.put id fields name value

/-- The fields in which names are repeated, each name once and with its last value. -/
def merge (fields : Fields) : Fields := Entries.putAll id [] fields

theorem merge_eq_foldl (fields : Fields) :
    fields.merge = fields.foldl (fun (fs : Fields) (name, value) => fs.put name value) [] :=
  Entries.putAll_eq_foldl id [] fields

theorem get?_put_self (fields : Fields) (name : Text.Loose) (value : Json) :
    (fields.put name value).get? name = some value :=
  Entries.get?_put_of_eq id fields value rfl

theorem get?_put_of_ne (fields : Fields) {name other : Text.Loose} (value : Json)
    (h : other ≠ name) : (fields.put name value).get? other = fields.get? other :=
  Entries.get?_put_of_ne id fields value h.symm

end Fields

end Json

end TapeMachine
