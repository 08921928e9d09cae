/-
Setting up the journal.

A journal is a level and a directory to write into. It is set up once: the first request that gets
through settles both for good, and later ones have to ask for the same. A request whose level or
directory is no good is refused before anything else, whatever the state.

* `Journal.request` — the journal that is asked for;
* `Journal.activate` — a request in a state, with the state behind it;
* `Journal.activateAll` — requests one after the other.
-/
import LintDiscovery.About
import LintDiscovery.Journal.Event
import LintDiscovery.File.Error

namespace LintDiscovery

/-- Where records go, and which ones. -/
structure Journal where
  level : Level
  dir : Path
  deriving DecidableEq, Repr

/-- Why a journal was not set up. -/
inductive JournalError where
  | unknownLevel (name : String)
  | emptyDir
  | relativeDir (dir : String)
  | cannotMakeDir (dir : Path) (error : FileError)
  | loggerTaken
  | otherDir (active asked : Path)
  | otherLevel (active asked : Level)
  deriving DecidableEq, Repr

/-- The wording of a refusal. -/
def JournalError.text : JournalError → String
  | .unknownLevel name =>
    "unsupported log level `" ++ name ++ "`; expected trace|debug|info|warn|error"
  | .emptyDir => "log_dir cannot be empty"
  | .relativeDir dir => "log_dir must be an absolute path, got `" ++ dir ++ "`"
  | .cannotMakeDir dir error =>
    "failed to create log directory `" ++ dir.text ++ "`: " ++ error.text
  | .loggerTaken => "failed to start logger: Logger initialization failed"
  | .otherDir active asked =>
    "logging already initialized at `" ++ active.text ++ "`; refusing to switch to `" ++
      asked.text ++ "`"
  | .otherLevel active asked =>
    "logging already initialized with level `" ++ active.name ++ "`; refusing to switch to `" ++
      asked.name ++ "`"

/-- What a request to set up a journal gives: a level and a directory, as texts. -/
structure JournalRequest where
  level : String
  dir : String
  deriving DecidableEq, Repr

/-- A request to set up a journal and what came of it: the answer, the journal that is active now,
the disk, and the events. -/
structure Activation (δ : Type) where
  result : Except JournalError Unit
  active : Option Journal
  disk : δ
  events : List Event

namespace Journal

/-- The level of a request. -/
def requestLevel (level : String) : Except JournalError Level :=
  match Level.ofName? (Level.normalized level) with
  | some l => .ok l
  | none => .error (.unknownLevel (Level.normalized level))

/-- The directory of a request: absolute, once it is trimmed. -/
def requestDir (dir : String) : Except JournalError Path :=
  let trimmed := Text.trim dir
  if trimmed = "" then .error .emptyDir
  else if (Path.mk trimmed).isAbsolute then .ok ⟨trimmed⟩
  else .error (.relativeDir trimmed)

/-- The journal that is asked for. The level is looked at first. -/
def request (level dir : String) : Except JournalError Journal := do
  let l ← requestLevel level
  return ⟨l, ← requestDir dir⟩

/-- Whether a journal that is active serves a request. The directory is compared first. -/
def agree (active asked : Journal) : Except JournalError Unit :=
  if !active.dir.same asked.dir then .error (.otherDir active.dir asked.dir)
  else if active.level ≠ asked.level then .error (.otherLevel active.level asked.level)
  else .ok ()

variable {δ : Type}

/-- Sets up a journal that is asked for, where none is active. Its directory is made first; `free`
says whether records can be taken at all. -/
def start (makeDirectories : Path → δ → Except FileError Unit × δ) (free : Bool)
    (asked : Journal) (disk : δ) : Activation δ :=
  match makeDirectories asked.dir disk with
  | (.error e, disk) => ⟨.error (.cannotMakeDir asked.dir e), none, disk, []⟩
  | (.ok _, disk) =>
    if free then
      ⟨.ok (), some asked, disk, [.journalStarted asked.level asked.dir version]⟩
    else ⟨.error .loggerTaken, none, disk, []⟩

/-- A request to set up a journal. -/
def activate (makeDirectories : Path → δ → Except FileError Unit × δ) (free : Bool)
    (level dir : String) (active : Option Journal) (disk : δ) : Activation δ :=
  match request level dir with
  | .error e => ⟨.error e, active, disk, []⟩
  | .ok asked =>
    match active with
    | some j => ⟨agree j asked, some j, disk, []⟩
    | none => start makeDirectories free asked disk

/-- Requests one after the other, and what comes of each. -/
def activateAll (makeDirectories : Path → δ → Except FileError Unit × δ) (free : Bool) :
    List JournalRequest → Option Journal → δ → List (Activation δ)
  | [], _, _ => []
  | r :: rest, active, disk =>
    let a := activate makeDirectories free r.level r.dir active disk
    a :: activateAll makeDirectories free rest a.active a.disk

end Journal

end LintDiscovery
