/-
Names on their way to modules.

Names are settled one after the other, in the order in which they are configured. A name is
resolved, then the host is asked for its loader, then the path is loaded; the first of these that
fails decides the fate of the name. Failures, and panics of the loader, are fates like any other. A
panic anywhere else interrupts the phase: the names settled by then are kept, the others are not
looked at.

* `LoadPhase.settle` — the fate of one name;
* `LoadPhase.settleAll` — the fates of names in sequence;
* `LoadPhase.run` — the whole phase, with the file that names are resolved against.
-/
import LintDiscovery.Diagnostic.Catalog
import LintDiscovery.Host.Basic

namespace LintDiscovery

/-- The name of configuration files. -/
def configFileName : String := "lintconfig.json"

/-- The file that names are resolved against: a configuration file in the working directory, there
or not. -/
def containingFile (directory : Option Path) : Path :=
  match directory with
  | some dir => dir.join ⟨configFileName⟩
  | none => ⟨configFileName⟩

/-- A module that has been loaded. -/
structure LoadedModule (κ : Type) where
  name : String
  path : Path
  exports : ExportTable κ
  deriving DecidableEq, Repr

/-- What became of a configured name. Events that the loader logged are kept with it. -/
inductive Fate (κ : Type) where
  | unresolved (error : ResolveError)
  | withoutLoader (path : Path)
  | failed (path : Path) (logged : List Event) (error : LoadError)
  | loaded (path : Path) (logged : List Event) (exports : ExportTable κ)

/-- The fate of a path, decided by the loader. -/
def Fate.ofLoading {κ : Type} (path : Path) : Except Panic (Loading κ) → Fate κ
  | .error p => .failed path [] (.ofPanic p)
  | .ok loading =>
    match loading.result with
    | .ok exports => .loaded path loading.events exports
    | .error e => .failed path loading.events e

/-- A configured name and its fate. -/
structure SettledName (κ : Type) where
  name : String
  fate : Fate κ

namespace SettledName

variable {κ : Type}

/-- The module that a name led to. -/
def module? (n : SettledName κ) : Option (LoadedModule κ) :=
  match n.fate with
  | .loaded path _ exports => some ⟨n.name, path, exports⟩
  | _ => none

/-- The problem that a name ended in. -/
def problem? (n : SettledName κ) : Option Problem :=
  match n.fate with
  | .unresolved _ => some (.notFound n.name)
  | .withoutLoader _ => some .loadingNotImplemented
  | .failed _ _ error => some (.loadFailed n.name error.detail)
  | .loaded _ _ _ => none

/-- The events on the way of a name. -/
def events (n : SettledName κ) : List Event :=
  match n.fate with
  | .unresolved error => [.nameUnresolved n.name error]
  | .withoutLoader path => [.nameResolved n.name path, .loaderUnavailable n.name]
  | .failed path logged error =>
    .nameResolved n.name path :: logged ++ [.loadFailed n.name error]
  | .loaded path logged exports =>
    .nameResolved n.name path :: logged ++ [.moduleLoaded n.name exports.size]

end SettledName

/-- A panic that is not the loader's, and the call that raised it. -/
inductive Interruption where
  | directory (panic : Panic)
  | resolver (name : String) (panic : Panic)
  | loaderQuery (name : String) (path : Path) (panic : Panic)
  deriving DecidableEq, Repr

namespace Interruption

/-- The panic itself. -/
def panic : Interruption → Panic
  | directory p => p
  | resolver _ p => p
  | loaderQuery _ _ p => p

/-- The events of the name that was interrupted. -/
def events : Interruption → List Event
  | loaderQuery name path _ => [.nameResolved name path]
  | _ => []

end Interruption

/-- How far a sequence of names got. -/
structure LoadPhase (κ : Type) where
  settled : List (SettledName κ)
  interruption : Option Interruption

namespace LoadPhase

variable {κ : Type}

/-- The modules that were loaded. -/
def modules (p : LoadPhase κ) : List (LoadedModule κ) :=
  p.settled.filterMap SettledName.module?

/-- The problems of the names. -/
def problems (p : LoadPhase κ) : List Problem :=
  p.settled.filterMap SettledName.problem?

/-- The events of the phase. -/
def events (p : LoadPhase κ) : List Event :=
  p.settled.flatMap SettledName.events ++ (p.interruption.map Interruption.events).getD []

/-! ### Running it -/

variable {σ : Type}

/-- Settles a name against a file. -/
def settle (h : Host κ σ) (file : Path) (name : String) (s : σ) :
    Except Interruption (Fate κ) × σ :=
  match h.resolve name file s with
  | (.error p, s) => (.error (.resolver name p), s)
  | (.ok (.error e), s) => (.ok (.unresolved e), s)
  | (.ok (.ok path), s) =>
    match h.hasLoader s with
    | (.error p, s) => (.error (.loaderQuery name path p), s)
    | (.ok false, s) => (.ok (.withoutLoader path), s)
    | (.ok true, s) =>
      let (result, s) := h.load path s
      (.ok (.ofLoading path result), s)

/-- Settles names in sequence, up to the first interruption. -/
def settleAll (h : Host κ σ) (file : Path) : List String → σ → LoadPhase κ × σ
  | [], s => (⟨[], none⟩, s)
  | name :: rest, s =>
    match settle h file name s with
    | (.error i, s) => (⟨[], some i⟩, s)
    | (.ok fate, s) =>
      let (phase, s) := settleAll h file rest s
      (⟨⟨name, fate⟩ :: phase.settled, phase.interruption⟩, s)

/-- The load phase of names on a host. -/
def run (h : Host κ σ) (names : List String) (s : σ) : LoadPhase κ × σ :=
  match h.directory s with
  | (.error p, s) => (⟨[], some (.directory p)⟩, s)
  | (.ok directory, s) => settleAll h (containingFile directory) names s

end LoadPhase

end LintDiscovery
