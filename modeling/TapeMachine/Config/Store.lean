import TapeMachine.Fault

/-!
# Configuration files

A configuration is saved as an object with a field on each line, and loaded by laying what the file
holds over the defaults. It is checked on both ways; one that is refused is not saved at all. One that
cannot be written to its end is in its file as far as it was written.
-/

namespace TapeMachine.Config

/-- The place of the configuration file if nothing else is said. -/
def defaultPath : String := "config/runtime_config.json"

/-- The configuration, if nothing is wrong with it. -/
def check (config : Config) : Except Fault Config :=
  match config.fault? with
  | some e => .error (.config e)
  | none => .ok config

/-- The configuration that a text holds. -/
def ofText (text : String) : Except Fault Config := do
  let value ← (Json.read text).mapError .json
  let config ← (defaults.overlay value).mapError .unmergeable
  config.check

/-- The configuration in a file. -/
def load (tree : Files.Tree) (path : String) : Except Fault Config := do
  if !tree.exists? path then throw (.noConfigFile path)
  let text ← (tree.readText path).mapError .ofText
  ofText text

/-- The chunks of an entry behind a text. -/
def entryChunks (front : List Char) (name : Name) (value : Json) : List Json.Chunk :=
  (if name.isWritable then .ok front else .error (.longInteger ⟨⟩))
    :: .ok (Json.stringChars name.written ++ [':', ' '])
    :: Json.chunks .indented 1 (Json.depthLimit - 1) [] value

/-- The chunks of a configuration: those of an object with its entries as fields. -/
def chunks : Config → List Json.Chunk
  | [] => [.ok ['\x7b', '\x7d']]
  | (name, value) :: others =>
    .ok ('\x7b' :: Json.Layout.newline .indented 1) :: entryChunks [] name value
      ++ others.flatMap (fun e => entryChunks (Json.Layout.separator .indented 1) e.1 e.2)
      ++ [.ok (Json.Layout.newline .indented 0 ++ ['\x7d'])]

/-- Saves a configuration, in a directory that is made if need be. Directories that were made
before a failure stay. -/
def save (config : Config) (tree : Files.Tree) (path : String) : Files.Tree × Option Fault :=
  match config.fault? with
  | some e => (tree, some (.config e))
  | none =>
    let made : Files.Tree × Option Files.FileError :=
      if Files.directoryOf path = "" then (tree, none)
      else tree.ensureDirectories (Files.directoryOf path)
    match made with
    | (tree, some e) => (tree, some (.file e))
    | (tree, none) =>
      match tree.writeText path (String.ofList (Json.written config.chunks)) with
      | .ok tree => (tree, (Json.stop? config.chunks).map .ofWriteError)
      | .error e => (tree, some (.file e))

/-- The lines that tell which configuration was loaded, and when. -/
def report (config : Config) (stamp : String) : List Text.Loose :=
  ("[" ++ stamp ++ "] Loaded config:")
    :: config.map fun (name, value) => "  " ++ name.shown ++ ": " ++ value.shown

end TapeMachine.Config
