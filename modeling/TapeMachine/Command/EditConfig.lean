import TapeMachine.Command.Basic

/-!
# Editing a configuration

Four settings are asked for, and the configuration with the answers is saved. It is taken over only
if it was saved; otherwise the old one stays.
-/

namespace TapeMachine.Command

open Session

/-- The settings that are asked for, with what is asked. -/
def editable : List (Config.Key × String) :=
  [(.maxHistory, "History size"), (.maxBatchSteps, "Max steps per test input"),
    (.playInterval, "Play interval (ms)"), (.tapeWindow, "Tape cells shown each side of the head")]

/-- Asks for the value of a setting. -/
def askSetting (config : Config) (key : Config.Key) (prompt : String) : Session Json :=
  match config.value? key with
  | some value => ask ⟨.integer, prompt, value, []⟩
  | none => throw (.noSetting key)

/-- Is the fault that a configuration is refused or holds what cannot be written, or that its path can
be the path of no file? -/
def isEditFault : Fault → Bool
  | .config _ | .file .nul | .noPath _ | .longInteger _ => true
  | _ => false

/-- Asks for settings and saves the configuration with the answers. One that was saved is taken over
by `adopt`; there is no result if it was refused. -/
def editConfig {α : Type} (config : Config) (save : Config → Session Unit)
    (adopt : Config → Session α) : Session (Option α) := do
  say "\n[bold]Edit Configuration[/bold]"
  let answers ← editable.mapM fun (key, prompt) => do
    pure (Config.Name.text key.name, ← askSetting config key prompt)
  let candidate := config.putAll answers
  match ← attempt isEditFault (save candidate) with
  | .error e =>
    sayIn "red" ("Config not saved: " ++ Markup.escape e.message)
    pure none
  | .ok () =>
    let adopted ← adopt candidate
    sayIn "green" "Configuration updated successfully."
    pure (some adopted)

end TapeMachine.Command
