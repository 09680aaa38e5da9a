import TapeMachine.Json.Basic
import TapeMachine.Binary64.Text
import TapeMachine.Text.Quoted

/-!
# JSON values in messages

Messages name the kinds of values by their type names, and show a value as the console would print
it: texts as they are, and inside a list or an object between quotes.
-/

namespace TapeMachine.Json

/-- The type name of a value. -/
def kindName : Json → String
  | .null => "NoneType"
  | .bool _ => "bool"
  | .int _ => "int"
  | .real _ => "float"
  | .str _ => "str"
  | .arr _ => "list"
  | .obj _ => "dict"

/-- The kind of a value, as messages write it. -/
def kindText (value : Json) : String := "<class '" ++ value.kindName ++ "'>"

mutual

/-- A value as it stands inside another one. -/
def shownInside : Json → String
  | .null => "None"
  | .bool true => "True"
  | .bool false => "False"
  | .int n => toString n
  | .real x => x.text
  | .str s => Text.quoted s
  | .arr items => "[" ++ ", ".intercalate (shownItems items) ++ "]"
  | .obj fields => "\x7b" ++ ", ".intercalate (shownFields fields) ++ "\x7d"

/-- The items of a list, each as it stands inside. -/
def shownItems : List Json → List String
  | [] => []
  | item :: items => shownInside item :: shownItems items

/-- The fields of an object, each as it stands inside. -/
def shownFields : List (Text.Loose × Json) → List String
  | [] => []
  | (name, value) :: fields =>
    (Text.quoted name ++ ": " ++ shownInside value) :: shownFields fields

end

/-- A value as a message shows it. -/
def shown : Json → Text.Loose
  | .str s => s
  | value => shownInside value

end TapeMachine.Json
