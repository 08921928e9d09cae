/-
Runs of the program.

A run sets up the journal if a directory for it is given, reads the configuration, attempts
discovery once on the host that searches directories, and prints a report. It fails when the journal
or the configuration fails, in which case nothing is printed, and when there is any diagnostic.

The file of the journal is there, without any records yet, when the configuration is read.
-/
import LintDiscovery.Config.File
import LintDiscovery.Journal.File
import LintDiscovery.Library.Host
import LintDiscovery.Program.Arguments
import LintDiscovery.Program.Report

namespace LintDiscovery

/-- What a run amounts to: the exit status, what is printed and complained, and the events for the
journal, if there is one. -/
structure Outcome where
  exit : Nat
  stdout : String
  stderr : String
  journal : Option Journal
  events : List Event

namespace Outcome

/-- A text is printed and that is all. -/
def printing (text : String) : Outcome := ⟨0, text, "", none, []⟩

/-- The run fails with a message. -/
def failure (message : String) : Outcome :=
  ⟨1, "", programName ++ ": " ++ message ++ "\n", none, []⟩

/-- The outcome with a journal and events before its own. -/
def logging (journal : Option Journal) (events : List Event) (o : Outcome) : Outcome :=
  ⟨o.exit, o.stdout, o.stderr, journal, events ++ o.events⟩

/-- The hint below mistakes in the arguments. -/
def usageHint : String :=
  "\n\nUsage: " ++ programName ++ " [OPTIONS]\n\nFor more information, try '--help'.\n"

/-- The arguments are wrong. -/
def misuse (e : UsageError) : Outcome := ⟨2, "", e.text ++ usageHint, none, []⟩

/-- The arguments explained, line by line. -/
def helpLines : List String := [
  "Discover and validate lint extensions",
  "",
  "Usage: " ++ programName ++ " [OPTIONS]",
  "",
  "Options:",
  "  -c, --config <CONFIG>        Path to the lint config file [default: " ++ configFileName ++ "]",
  "      --json                   Emit a JSON report instead of text",
  "      --log-dir <LOG_DIR>      Absolute directory for rolling log files",
  "      --log-level <LOG_LEVEL>  Log level (trace|debug|info|warn|error)",
  "  -h, --help                   Print help",
  "  -V, --version                Print version"]

/-- The arguments explained. -/
def help : Outcome := printing (Report.unlines helpLines)

/-- The outcome of an attempt at discovery. -/
def ofAttempt {κ : Type} (json : Bool) (a : Attempt κ) : Outcome :=
  match a.result with
  | .error p => ⟨101, "", p.message ++ "\n", none, a.events⟩
  | .ok d =>
    ⟨if d.diagnostics.isEmpty then 0 else 1, (Report.ofDiscovery d).text json, "", none,
      a.events ++ [.discoveryReported d.groups.toList.length d.diagnostics.length]⟩

end Outcome

namespace Invocation

variable {κ δ : Type}

/-- The journal of a run, where one is asked for. -/
def openJournal (disk : Disk (Library.Image κ) δ) (i : Invocation) (state : δ) : Activation δ :=
  match i.logDir with
  | none => ⟨.ok (), none, state, []⟩
  | some dir =>
    Journal.activate disk.makeDirectories true (i.logLevel.getD Level.standard.name) dir none state

/-- A run without its journal. -/
def discover (disk : Disk (Library.Image κ) δ) (directory : Option Path) (i : Invocation)
    (state : δ) : Outcome :=
  match Config.ofFile (fun p => disk.readText p state) i.config with
  | .error e => .failure e.message
  | .ok c =>
    let host := Library.host disk state c.dirs directory
    .ofAttempt i.json (Discovery.attempt c.extensions c.policy host ()).1

/-- A run on a disk, in a working directory. -/
def run (disk : Disk (Library.Image κ) δ) (directory : Option Path) (i : Invocation) (state : δ) :
    Outcome × δ :=
  let a := i.openJournal disk state
  match a.result with
  | .error e => (.failure e.text, a.disk)
  | .ok _ =>
    let state := Journal.openFile disk a.active a.events a.disk
    ((i.discover disk directory state).logging a.active a.events, state)

end Invocation

/-- The program: what it does with arguments on a disk, in a working directory. -/
def runProgram {κ δ : Type} (disk : Disk (Library.Image κ) δ) (directory : Option Path)
    (arguments : List String) (state : δ) : Outcome × δ :=
  match Request.ofArguments arguments with
  | .error e => (.misuse e, state)
  | .ok .version => (.printing (programName ++ " " ++ version ++ "\n"), state)
  | .ok .help => (.help, state)
  | .ok (.run i) => i.run disk directory state

end LintDiscovery
