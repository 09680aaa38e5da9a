import TapeMachine.Config.Name

/-!
# Configurations

A configuration is a list of entries, each a name and a value. Eight settings have to be in it,
each of its own kind; other entries are kept and mean nothing. `fault?` is the check that every
configuration passes before it is used or saved.
-/

namespace TapeMachine

/-- A configuration: its entries, in order. -/
abbrev Config := List (Config.Name × Json)

namespace Config

/-- The settings. -/
inductive Key where
  | maxHistory
  | maxBatchSteps
  | playInterval
  | tapeWindow
  | defaultInput
  | machineFile
  | outputDirectory
  | logPrefix
  deriving DecidableEq, Repr

/-- What a setting holds. -/
inductive Kind where
  | integer
  | text
  deriving DecidableEq, Repr

namespace Key

/-- The name of a setting in the file. -/
def name : Key → String
  | .maxHistory => "max_history"
  | .maxBatchSteps => "max_batch_steps"
  | .playInterval => "play_interval_ms"
  | .tapeWindow => "tape_window"
  | .defaultInput => "default_input"
  | .machineFile => "machine_file"
  | .outputDirectory => "output_directory"
  | .logPrefix => "log_file_prefix"

/-- Every setting, in the order in which they are checked. -/
def all : List Key :=
  [.maxHistory, .maxBatchSteps, .playInterval, .tapeWindow, .defaultInput, .machineFile,
    .outputDirectory, .logPrefix]

/-- The settings that must be positive, in the order in which they are checked. -/
def positive : List Key := [.maxHistory, .maxBatchSteps, .playInterval]

/-- What a setting holds. -/
def kind : Key → Kind
  | .maxHistory | .maxBatchSteps | .playInterval | .tapeWindow => .integer
  | .defaultInput | .machineFile | .outputDirectory | .logPrefix => .text

/-- What a setting is if nothing else is said. -/
def default : Key → Json
  | .maxHistory => .int 2000
  | .maxBatchSteps => .int 5000
  | .playInterval => .int 500
  | .tapeWindow => .int 7
  | .defaultInput => .str "abba"
  | .machineFile => .str ""
  | .outputDirectory => .str "logs/"
  | .logPrefix => .str "turing_"

end Key

/-- Is a value of a kind? A truth value is no integer. -/
def Kind.holds : Kind → Json → Bool
  | .integer, .int _ => true
  | .text, .str _ => true
  | _, _ => false

/-- The type name of a kind. -/
def Kind.typeText : Kind → String
  | .integer => "<class 'int'>"
  | .text => "<class 'str'>"

/-- Why a configuration is refused. -/
inductive Invalid where
  | missing (key : Key)
  | wrongKind (key : Key) (value : Json)
  | notPositive (key : Key) (value : Int)
  | negativeWindow
  deriving BEq, Repr

/-- The refusal in words. An integer that has no text is refused in words of its own. -/
def Invalid.message : Invalid → String
  | .missing key => "Missing required configuration key: " ++ key.name
  | .wrongKind key value =>
    "Config key '" ++ key.name ++ "' expected " ++ key.kind.typeText ++ ", got "
      ++ value.kindText ++ "."
  | .notPositive key value =>
    match Text.Integer.written value with
    | .ok text => "Config key '" ++ key.name ++ "' must be positive, got " ++ text ++ "."
    | .error e => e.message
  | .negativeWindow => "Config key 'tape_window' must not be negative."

/-! ## Entries -/

/-- The value of an entry. -/
def get? (config : Config) (name : Name) : Option Json := Entries.get? Name.canonical config name

/-- Gives an entry a value. It stays in its place, and keeps the name that it has; a new one goes to
the end. -/
def put (config : Config) (name : Name) (value : Json) : Config :=
  Entries.put Name.canonical config name value

/-- Gives several entries values, one after the other. -/
def putAll (config entries : Config) : Config := Entries.putAll Name.canonical config entries

theorem putAll_eq_foldl (config entries : Config) :
    config.putAll entries =
      entries.foldl (fun (config : Config) (name, value) => config.put name value) config :=
  Entries.putAll_eq_foldl Name.canonical config entries

/-- The configuration that the fields of an object are. -/
def ofFields (fields : Json.Fields) : Config := fields.map fun (name, value) => (.text name, value)

/-- The configuration as fields of an object. -/
def toFields (config : Config) : Json.Fields :=
  config.map fun (name, value) => (name.written, value)

/-- Fields with texts for names are kept as they are. -/
@[simp] theorem toFields_ofFields (fields : Json.Fields) : toFields (ofFields fields) = fields := by
  induction fields with
  | nil => rfl
  | cons f rest ih =>
    simp only [ofFields, toFields, List.map_map, List.map_cons, List.cons.injEq] at ih ⊢
    exact ⟨rfl, ih⟩

theorem get?_put_of_same (config : Config) {name other : Name} (value : Json)
    (h : Name.Same name other) : (config.put name value).get? other = some value :=
  Entries.get?_put_of_eq Name.canonical config value h

theorem get?_put_of_not_same (config : Config) {name other : Name} (value : Json)
    (h : ¬ Name.Same name other) : (config.put name value).get? other = config.get? other :=
  Entries.get?_put_of_ne Name.canonical config value h

/-! ## Settings -/

/-- The value of a setting, if there is one. -/
def value? (config : Config) (key : Key) : Option Json := config.get? (.text key.name)

/-- The value of an integer setting; zero if it is missing or no integer. -/
def int (config : Config) (key : Key) : Int :=
  match config.value? key with
  | some (.int n) => n
  | _ => 0

/-- The value of a text setting; empty if it is missing or no text. -/
def text (config : Config) (key : Key) : Text.Loose :=
  match config.value? key with
  | some (.str s) => s
  | _ => ""

/-- The configuration with a setting changed. -/
def set (config : Config) (key : Key) (value : Json) : Config :=
  config.put (.text key.name) value

/-! ## Checks -/

/-- What is wrong with the kind of a setting. -/
def kindFault? (config : Config) (key : Key) : Option Invalid :=
  match config.value? key with
  | none => some (.missing key)
  | some value => if key.kind.holds value then none else some (.wrongKind key value)

/-- What is wrong with a setting that must be positive. -/
def signFault? (config : Config) (key : Key) : Option Invalid :=
  if config.int key ≤ 0 then some (.notPositive key (config.int key)) else none

/-- What is wrong with the width of the tape window. -/
def windowFault? (config : Config) : Option Invalid :=
  if config.int .tapeWindow < 0 then some .negativeWindow else none

/-- The first thing that is wrong with a configuration. The kinds of all settings are checked
before the values of any. -/
def fault? (config : Config) : Option Invalid :=
  Key.all.findSome? config.kindFault?
    <|> Key.positive.findSome? config.signFault?
    <|> config.windowFault?

/-- Nothing is wrong with the configuration. -/
def Valid (config : Config) : Prop := config.fault?.isNone

instance (config : Config) : Decidable config.Valid :=
  inferInstanceAs (Decidable (config.fault?.isNone = true))

/-- The configuration with every setting as it is if nothing else is said. -/
def defaults : Config := Key.all.map fun key => (.text key.name, key.default)

theorem defaults_valid : defaults.Valid := by decide +kernel

end Config

end TapeMachine
