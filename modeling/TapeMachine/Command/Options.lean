import TapeMachine.Text.Integer

/-!
# Command line switches

A switch has a long name, and most take a value, which is the next argument or stands behind an
equals sign. A name may be cut short as long as it still means one switch. An argument that starts
with a dash can be a value only if it is a lone dash, a negative number, or no switch and holds a
space. No command takes values that belong to no switch, so a bare `--`, behind which everything is
a value, is misuse. Behind an equals sign it is no value: the switch is given, but without one. If a
switch is given twice, the later one counts.
-/

namespace TapeMachine.Command

/-- What a switch takes. -/
inductive Takes where
  /-- Nothing: the switch is given or not. -/
  | nothing
  /-- Nothing: the switch asks how the command is used. -/
  | help
  /-- Any text. -/
  | text
  /-- An integer. -/
  | integer
  /-- One of these texts. -/
  | oneOf (choices : List String)
  deriving DecidableEq, Repr

/-- A switch of a command, and what it is for. -/
structure Switch where
  name : String
  takes : Takes
  required : Bool
  purpose : String
  deriving DecidableEq, Repr

/-- What the switches are for that every command has. -/
def helpPurpose : String := "show this help message and exit"

/-- The switches that every command has. -/
def helpSwitches : List Switch :=
  [⟨"-h", .help, false, helpPurpose⟩, ⟨"--help", .help, false, helpPurpose⟩]

/-- Why a command is not run. -/
inductive Refusal where
  /-- It is used in a wrong way. -/
  | misuse
  /-- It was asked how it is used. -/
  | help
  deriving DecidableEq, Repr

/-- The status with which a command that is not run ends. -/
def Refusal.status : Refusal → Nat
  | .misuse => 2
  | .help => 0

/-- The part an argument plays. -/
inductive Role where
  | value
  /-- A switch, perhaps with a value behind an equals sign. -/
  | switch (s : Switch) (attached : Option String)
  | unknown
  deriving DecidableEq, Repr

/-- A text cut at its first equals sign. -/
def cutAtEquals (arg : String) : String × Option String :=
  match arg.toList.dropWhile (· != '=') with
  | [] => (arg, none)
  | _ :: rest => (String.ofList (arg.toList.takeWhile (· != '=')), some (String.ofList rest))

/-- A dash, and digits with at most one point, behind which there is a digit. A line feed at the
end does not matter. -/
def isNegativeNumber : List Char → Bool
  | '-' :: rest =>
    let isDigit (c : Char) := (Text.digitValue? c).isSome
    let cs := if rest.getLast? = some '\n' then rest.dropLast else rest
    match cs.dropWhile isDigit with
    | [] => !cs.isEmpty
    | '.' :: fraction => !fraction.isEmpty && fraction.all isDigit
    | _ => false
  | _ => false

/-- The switches that a name, perhaps cut short, may mean. A single dash needs no equals sign. -/
def candidates (switches : List Switch) (arg : String) : List Role :=
  match arg.toList with
  | '-' :: '-' :: _ =>
    let (name, attached) := cutAtEquals arg
    (switches.filter fun s => name.toList.isPrefixOf s.name.toList).map (.switch · attached)
  | '-' :: c :: rest =>
    (switches.filter fun s => s.name.toList == ['-', c]).map (.switch · (some (String.ofList rest)))
  | _ => []

/-- The part of an argument that starts with a dash and is longer. -/
def dashedRole (switches : List Switch) (arg : String) : Except Refusal Role :=
  let (name, attached) := cutAtEquals arg
  match switches.find? (·.name == arg), switches.find? (·.name == name) with
  -- a full name is never taken for a short form of a longer one
  | some s, _ => .ok (.switch s none)
  | none, some s => .ok (.switch s attached)
  | none, none =>
    match candidates switches arg with
    | [role] => .ok role
    | _ :: _ :: _ => .error .misuse
    | [] =>
      if isNegativeNumber arg.toList || arg.toList.contains ' ' then .ok .value else .ok .unknown

/-- The part of an argument. -/
def roleOf (switches : List Switch) (arg : String) : Except Refusal Role :=
  match arg.toList with
  | '-' :: _ :: _ => dashedRole switches arg
  | _ => .ok .value

/-- The switches that were given, in order, with their values if they have one. -/
abbrev Given := List (String × Option String)

/-- What a switch was given with, if it was given: the last time counts. -/
def Given.get? (given : Given) (name : String) : Option (Option String) :=
  (given.reverse.find? (·.1 == name)).map (·.2)

/-- Was a switch given? -/
def Given.has (given : Given) (name : String) : Bool := (given.get? name).isSome

/-- The value of a switch, if it was given with one. -/
def Given.text? (given : Given) (name : String) : Option String := (given.get? name).join

/-- The integer value of a switch, if it was given with one. -/
def Given.integer? (given : Given) (name : String) : Option Int :=
  (given.text? name).bind Text.Integer.read?

/-- Does a switch take a value? -/
def Takes.value : Takes → Bool
  | .nothing | .help => false
  | .text | .integer | .oneOf _ => true

/-- Is a value one that the switch takes? -/
def Takes.allows : Takes → String → Bool
  | .nothing, _ | .help, _ => false
  | .text, _ => true
  | .integer, value => (Text.Integer.read? value).isSome
  | .oneOf choices, value => choices.contains value

/-- Does a value only repeat the letter of a switch? `-hh` asks for help twice. -/
def Switch.repeats (s : Switch) (value : String) : Bool :=
  match s.name.toList with
  | ['-', letter] => value ≠ "" && value.toList.all (· == letter)
  | _ => false

/-- Gives each switch its value. Values that belong to no switch, and unknown switches, are counted:
the second part of the result tells whether there are none. -/
def assign : List (String × Role) → Except Refusal (Given × Bool)
  | [] => .ok ([], true)
  | (_, .value) :: rest | (_, .unknown) :: rest => do
    let (given, _) ← assign rest
    pure (given, false)
  | (_, .switch s (some value)) :: rest =>
    if s.takes = .help && s.repeats value then .error .help
    else if value = "--" && s.takes.value then do
      let (given, complete) ← assign rest
      pure ((s.name, none) :: given, complete)
    else if s.takes.allows value then do
      let (given, complete) ← assign rest
      pure ((s.name, some value) :: given, complete)
    else .error .misuse
  | (_, .switch s none) :: rest =>
    -- the question how the command is used ends the reading, whatever follows
    if s.takes = .help then .error .help
    else if s.takes = .nothing then do
      let (given, complete) ← assign rest
      pure ((s.name, none) :: given, complete)
    else match rest with
      | (value, .value) :: others =>
        if s.takes.allows value then do
          let (given, complete) ← assign others
          pure ((s.name, some value) :: given, complete)
        else .error .misuse
      | _ => .error .misuse

/-- The switches that the arguments of a command give. -/
def readArguments (switches : List Switch) (args : List String) : Except Refusal Given := do
  let front := args.takeWhile (· != "--")
  let roles ← front.mapM (roleOf (helpSwitches ++ switches))
  let (given, complete) ← assign (front.zip roles)
  if complete && front.length == args.length
      && switches.all (fun s => !s.required || given.has s.name) then
    pure given
  else throw .misuse

end TapeMachine.Command
