import TapeMachine.Files.Text
import TapeMachine.Json.Printer

/-!
# Journals

A journal is a directory of files to which JSON values are appended, one on a line. There are three
channels: the main one, whose files have a prefix of the user's choice, and one each for accepted
and rejected cases. Every file carries the day on which the journal was opened, or rotated last.
-/

namespace TapeMachine

/-- Where a journal is kept, and the day of its files. -/
structure Journal where
  directory : Text.Loose
  logPrefix : Text.Loose
  today : String
  deriving DecidableEq, Repr

namespace Journal

/-- The directory of a journal if nothing else is said. -/
def defaultDirectory : String := "logs/"

/-- The prefix of a journal's main files if nothing else is said. -/
def defaultPrefix : String := "turing_"

/-- What an entry is about. -/
inductive Channel where
  | main
  | accepted
  | rejected
  deriving DecidableEq, Repr

/-- How the names of a channel's files start. -/
def stem (j : Journal) : Channel → Text.Loose
  | .main => j.logPrefix
  | .accepted => "accepted_"
  | .rejected => "rejected_"

/-- The file of a channel. -/
def path (j : Journal) (channel : Channel) : Text.Loose :=
  Files.join j.directory (j.stem channel ++ Text.Loose.whole (j.today ++ ".jsonl"))

/-- The journal on another day. -/
def rotate (j : Journal) (today : String) : Journal := { j with today := today }

/-- The line of an entry. -/
def line (entry : Json) : String := entry.compact ++ "\n"

/-- The lines of entries. -/
def lines (entries : List Json) : String := String.join (entries.map line)

/-- Appends entries to a channel. The file is made even if there are none. -/
def write (j : Journal) (tree : Files.Tree) (channel : Channel) (entries : List Json) :
    Except Files.FileError Files.Tree :=
  tree.appendText (j.path channel) (lines entries)

end Journal

end TapeMachine
