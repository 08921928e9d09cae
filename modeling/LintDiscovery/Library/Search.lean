/-
Searching directories for libraries.

The library of an extension is looked for in directories, one after the other, below the directory
of the file that asks for it. The first candidate that is a file is taken. A name has to be a
single component of a path and must not begin or end with a blank; other names are not searched for
at all.

* `resolve` — a search where the files that exist are known;
* `search` — a search that probes one candidate after the other.
-/
import LintDiscovery.Host.Error
import LintDiscovery.Text.Blank

namespace LintDiscovery.Library

/-- What file names of libraries begin with. -/
def filePrefix : String := "lib"

/-- What file names of libraries end with. -/
def fileSuffix : String := ".so"

/-- The directories to search where none are configured. -/
def standardDirs : List Path := [⟨"lint_extensions"⟩, ⟨"."⟩]

/-- The directories to search: those configured, or else the standard ones. -/
def searchDirs (dirs : List Path) : List Path :=
  if dirs.isEmpty then standardDirs else dirs

/-- A name as file names spell it, with underscores for hyphens. -/
def spelled (name : String) : String :=
  String.ofList (name.toList.map fun c => if c = '-' then '_' else c)

/-- The file name of the library of an extension. -/
def fileName (suffix name : String) : String :=
  filePrefix ++ spelled name ++ suffix

/-- Whether a path consists of a single name. -/
def isSingleName (p : Path) : Bool :=
  match p.components with
  | [.name _] => true
  | _ => false

/-- Whether a name can be the name of an extension. -/
def isValidName (name : String) : Bool :=
  name != "" && Text.trim name == name && isSingleName ⟨name⟩

/-- The directory of a file; a file that has none is in the current directory. -/
def directoryOf (file : Path) : Path :=
  match file.parent? with
  | some p => if p.text = "" then ⟨"."⟩ else p
  | none => ⟨"."⟩

/-- The path at which a library may be in a directory. -/
def candidateIn (suffix name : String) (file dir : Path) : Path :=
  ((directoryOf file).join dir).join ⟨fileName suffix name⟩

/-- The paths at which a library may be, in the order of the directories. -/
def candidates (dirs : List Path) (suffix name : String) (file : Path) : List Path :=
  dirs.map (candidateIn suffix name file)

/-- Searches directories for the library of an extension. -/
def resolve (isFile : Path → Bool) (dirs : List Path) (suffix name : String) (file : Path) :
    Except ResolveError Path :=
  if isValidName name then
    match (candidates dirs suffix name file).find? isFile with
    | some path => .ok path
    | none => .error (.notFound name (candidates dirs suffix name file))
  else .error (.invalidName name)

section Search

variable {σ : Type}

/-- Probes for a library in one directory after the other, up to the first hit. The candidates that
were probed in vain are kept; a probe may be answered otherwise whenever it is made. -/
def searchFrom (probe : Path → σ → Bool × σ) (suffix name : String) (file : Path) :
    (searched dirs : List Path) → σ → Except ResolveError Path × σ
  | searched, [], s => (.error (.notFound name searched), s)
  | searched, dir :: dirs, s =>
    match probe (candidateIn suffix name file dir) s with
    | (true, s) => (.ok (candidateIn suffix name file dir), s)
    | (false, s) =>
      searchFrom probe suffix name file (searched ++ [candidateIn suffix name file dir]) dirs s

/-- Searches directories for the library of an extension by probing. -/
def search (probe : Path → σ → Bool × σ) (dirs : List Path) (suffix name : String) (file : Path)
    (s : σ) : Except ResolveError Path × σ :=
  if isValidName name then searchFrom probe suffix name file [] dirs s
  else (.error (.invalidName name), s)

end Search

/-- Probes for files where those that exist are known; each probe is put on record. -/
def probing (isFile : Path → Bool) (path : Path) (probes : List Path) : Bool × List Path :=
  (isFile path, probes ++ [path])

end LintDiscovery.Library
