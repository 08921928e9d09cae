/-
The file of a journal.

Records go to a file in the directory of the journal, one after the other; the first record makes
the file. Records below the level of the journal are left out.

* `Journal.writeEvents` — records written at once;
* `Journal.openFile` — the file of a run: its first record makes it, and the records themselves are
  held back until the run ends.
-/
import LintDiscovery.File.Disk
import LintDiscovery.Journal.Setup

namespace LintDiscovery.Journal

/-- The name of the file with the latest records. -/
def fileName : String := programName ++ "_rCURRENT.log"

/-- The figure for what took time. It is not measured. -/
def elapsed : String := "0"

/-- A line of the file. -/
def line (level : Level) (text : String) : String :=
  level.label ++ " " ++ text ++ "\n"

variable {ι : Type}

/-- Writes a record, if there is a journal that takes it. -/
def write (active : Option Journal) (level : Level) (text : String) (t : FileTree ι) :
    FileTree ι :=
  match active with
  | some j => if j.level.admits level then t.appendText [] j.dir fileName (line level text) else t
  | none => t

/-- Writes the records of events. -/
def writeEvents (active : Option Journal) (events : List Event) (t : FileTree ι) : FileTree ι :=
  events.foldl (fun t e => write active e.level (e.text elapsed) t) t

/-- Whether a journal takes one of some events. -/
def takesAny (j : Journal) (events : List Event) : Bool :=
  events.any fun e => j.level.admits e.level

/-- Makes the file of a journal, if there is one and it takes one of the events. -/
def openFile {δ : Type} (disk : Disk ι δ) (active : Option Journal) (events : List Event)
    (state : δ) : δ :=
  match active with
  | some j => if j.takesAny events then disk.makeFile j.dir fileName state else state
  | none => state

end LintDiscovery.Journal
