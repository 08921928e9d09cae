/-
Images of libraries.

An image is what a library offers to a loader: entry points by name, each of which gives an export
table when it is called, or nothing. Opening a library, finding its entry point and calling it can
each fail.
-/
import LintDiscovery.Host.Basic

namespace LintDiscovery.Library

/-- The entry points of a library, with what they give. -/
structure Image (κ : Type) where
  entryPoints : List (String × Option (ExportTable κ))
  deriving DecidableEq, Repr

/-- The entry point of extensions. -/
def entryPoint : String := "lintkit_extension_module"

namespace Image

variable {κ : Type}

/-- A library with an export table. -/
def ofExports (table : ExportTable κ) : Image κ := ⟨[(entryPoint, some table)]⟩

/-- A library whose entry point gives nothing. -/
def hollow : Image κ := ⟨[(entryPoint, none)]⟩

/-- A library without an entry point. -/
def foreign : Image κ := ⟨[]⟩

/-- What an entry point gives, if it is there. -/
def call? (i : Image κ) (name : String) : Option (Option (ExportTable κ)) :=
  (i.entryPoints.find? fun e => e.1 == name).map Prod.snd

end Image

/-- Why a library could not be loaded. -/
inductive ImageError where
  | badEntryPoint (name : String)
  | cannotOpen (path : Path) (reason : String)
  | missingEntryPoint (name : String) (path : Path) (reason : String)
  | nothingGiven (name : String) (path : Path)
  deriving DecidableEq, Repr

/-- The wording of a failure. -/
def ImageError.text : ImageError → String
  | .badEntryPoint name => "invalid entrypoint `" ++ name ++ "`: contains null byte"
  | .cannotOpen path reason => "failed to load library `" ++ path.text ++ "`: " ++ reason
  | .missingEntryPoint name path reason =>
    "failed to resolve symbol `" ++ name ++ "` in `" ++ path.text ++ "`: " ++ reason
  | .nothingGiven name path =>
    "entrypoint `" ++ name ++ "` in `" ++ path.text ++ "` returned null"

variable {κ : Type}

/-- The image at a path. An empty path stands for the running program, which has no entry points. -/
def openImage (image : Path → Except String (Image κ)) (path : Path) : Except String (Image κ) :=
  if path.text = "" then .ok .foreign else image path

/-- Loads a library through an entry point. The name of the entry point is looked at first. -/
def read (image : Path → Except String (Image κ)) (name : String) (path : Path) :
    Except ImageError (ExportTable κ) :=
  if name.toList.contains '\x00' then .error (.badEntryPoint name)
  else
    match openImage image path with
    | .error reason => .error (.cannotOpen path reason)
    | .ok i =>
      match i.call? name with
      | none => .error (.missingEntryPoint name path "undefined symbol")
      | some none => .error (.nothingGiven name path)
      | some (some table) => .ok table

/-- Loads a library through an entry point and logs that it was opened. -/
def load (image : Path → Except String (Image κ)) (name : String) (path : Path) : Loading κ :=
  match read image name path with
  | .ok table => ⟨.ok table, [.libraryOpened path table.size]⟩
  | .error e => ⟨.error (.ofMessage e.text), []⟩

end LintDiscovery.Library
