/-
Hosts.

A host is what discovery runs on. It may know a working directory, it resolves names to paths, and
it may be able to load what lies there. Every call may end in a panic instead of an answer, and the
host may change with every call; `σ` is the type of its states and `κ` that of the constructors it
loads.

* `Host.bare` — a host that only resolves;
* `Host.pure` — a host that never changes and never panics.
-/
import LintDiscovery.Journal.Event
import LintDiscovery.Module.Export

namespace LintDiscovery

/-- A call: its answer or the panic it ends in, and the state behind it. -/
abbrev Call (σ α : Type) := σ → Except Panic α × σ

/-- What a loader makes of a path: a table of exports or a failure, and the events it logs. -/
structure Loading (κ : Type) where
  result : Except LoadError (ExportTable κ)
  events : List Event

/-- What discovery asks of its surroundings. -/
structure Host (κ σ : Type) where
  /-- The working directory, if there is one. -/
  directory : Call σ (Option Path)
  /-- The path that a name in a file leads to. -/
  resolve : String → Path → Call σ (Except ResolveError Path)
  /-- Whether there is a loader. -/
  hasLoader : Call σ Bool
  /-- What the loader makes of a path. -/
  load : Path → Call σ (Loading κ)

namespace Host

variable {κ σ : Type}

/-- A call that gives an answer and changes nothing. -/
def answer {α : Type} (a : α) : Call σ α :=
  fun s => (.ok a, s)

/-- A host that resolves names, and does nothing else. -/
def bare (resolve : String → Path → Call σ (Except ResolveError Path)) : Host κ σ where
  directory := answer none
  resolve := resolve
  hasLoader := answer false
  load _ := answer ⟨.error (.ofMessage ""), []⟩

/-- A host that always answers the same way. -/
def pure (directory : Option Path) (resolve : String → Path → Except ResolveError Path)
    (load : Path → Loading κ) : Host κ Unit where
  directory := answer directory
  resolve name file := answer (resolve name file)
  hasLoader := answer true
  load path := answer (load path)

end Host

end LintDiscovery
