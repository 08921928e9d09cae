/-
The program itself.

What a run needs of the file system is gathered first: the directory and the file of the journal are
made, the configuration is read, and the candidates for the libraries are looked at. The run is then
computed from what was gathered, and what it prints and logs is written at the end. Native code is
not loaded, so every library that is found fails to load.
-/
import LintDiscovery.Program.Run

namespace LintDiscovery.Main

/-- A failure of the file system as the program words it. -/
def fileError : IO.Error → FileError
  | .alreadyExists .. => .exists
  | .inappropriateType .. => .isDirectory
  | .invalidArgument .. => .nameTooLong
  | _ => .missing

/-- The text of a file. -/
def readText (path : Path) : IO (Except FileError String) := do
  try
    match String.fromUTF8? (← IO.FS.readBinFile path.text) with
    | some s => return .ok s
    | none => return .error .notText
  catch e => return .error (fileError e)

/-- Whether a path leads to a regular file, be it one that can be read or not. -/
def isFile (path : Path) : IO Bool := do
  try
    let found ← (← IO.FS.realPath path.text).metadata
    return found.type == .file
  catch _ => return false

/-- The file of a journal. -/
def journalFile (journal : Journal) : String :=
  (journal.dir.join ⟨Journal.fileName⟩).text

/-- Makes the directory of a journal that is asked for, and its file if it takes a first event. -/
def makeJournal (i : Invocation) : IO (Except FileError Unit) := do
  match Journal.request (i.logLevel.getD Level.standard.name) (i.logDir.getD "") with
  | .error _ => return .ok ()
  | .ok asked =>
    try
      IO.FS.createDirAll asked.dir.text
      if asked.takesAny [.journalStarted asked.level asked.dir version] then
        try
          let _ ← IO.FS.Handle.mk (journalFile asked) .append
        catch _ => pure ()
      return .ok ()
    catch e => return .error (fileError e)

/-- The paths of a configuration at which libraries may be. -/
def candidates (directory : Option Path) (c : Config) : List Path :=
  (c.extensions.names.filter Library.isValidName).flatMap fun name =>
    Library.candidates (Library.searchDirs c.dirs) Library.fileSuffix name
      (containingFile directory)

/-- What a run sees of the file system. -/
def gather (directory : Option Path) (i : Invocation) : IO (Disk (Library.Image Empty) Unit) := do
  let made ← makeJournal i
  let raw ← readText i.config
  let c := match Config.ofFile (fun _ => raw) i.config with
    | .ok c => c
    | .error _ => Config.default
  let files ← (candidates directory c).filterM isFile
  return {
    readText := fun _ _ => raw
    isFile := fun path _ => files.contains path
    image := fun _ _ => .error "native code is not supported"
    makeDirectories := fun _ _ => (made, ())
    makeFile := fun _ _ _ => () }

/-- Adds the events that a journal takes to its file. -/
def writeJournal (journal : Journal) (events : List Event) : IO Unit := do
  let handle ← IO.FS.Handle.mk (journalFile journal) .append
  for e in events do
    if journal.level.admits e.level then
      handle.putStr (Journal.line e.level (e.text Journal.elapsed))

/-- Prints and logs what a run amounts to. -/
def finish (o : Outcome) : IO UInt32 := do
  (← IO.getStdout).putStr o.stdout
  (← IO.getStderr).putStr o.stderr
  if let some journal := o.journal then
    try writeJournal journal o.events catch _ => pure ()
  return o.exit.toUInt32

/-- The disk of a run that needs none. -/
def noDisk : Disk (Library.Image Empty) Unit where
  readText _ _ := .error .missing
  isFile _ _ := false
  image _ _ := .error ""
  makeDirectories _ _ := (.ok (), ())
  makeFile _ _ _ := ()

/-- The program with its arguments. -/
def start (arguments : List String) : IO UInt32 := do
  let directory ← try pure (some (Path.mk (← IO.currentDir).toString)) catch _ => pure none
  let disk ← match Request.ofArguments arguments with
    | .ok (.run i) => gather directory i
    | _ => pure noDisk
  finish (runProgram disk directory arguments ()).1

end LintDiscovery.Main

/-- Runs the program. -/
def main (arguments : List String) : IO UInt32 :=
  LintDiscovery.Main.start arguments
