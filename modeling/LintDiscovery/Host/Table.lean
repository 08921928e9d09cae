/-
Hosts given as tables.

A table lists modules, each with what comes of resolving its name and of loading its path. Names
and paths are looked up from the front. A resolver may panic a number of times and then answer; the
state of the host is the number of panics so far.
-/
import LintDiscovery.Host.Basic

namespace LintDiscovery

/-- Panics of a resolver: what they carry, and how often they occur in all. -/
structure ResolverPanic where
  message : String
  times : Option Nat
  deriving DecidableEq, Repr

/-- What comes of loading a path. -/
inductive LoadOutcome (κ : Type) where
  | exports (table : ExportTable κ)
  | failure (error : LoadError)
  | panic (p : Panic)

/-- A module of a table. -/
structure TableModule (κ : Type) where
  name : String
  path : Path
  resolverPanic : Option ResolverPanic
  resolveError : Option ResolveError
  outcome : LoadOutcome κ

/-- The path of a module that says none. -/
def TableModule.pathOf (name : String) : Path := ⟨"/ext/" ++ name⟩

/-- The loader of a table: none, one that panics when asked for, or one that is there. -/
inductive LoaderPresence where
  | absent
  | panicking (message : String)
  | present
  deriving DecidableEq, Repr

/-- A host as a table. -/
structure HostTable (κ : Type) where
  modules : List (TableModule κ)
  directory : Option Path
  loader : LoaderPresence

namespace HostTable

variable {κ : Type}

/-- Whether one more panic is due. -/
def isDue (times : Option Nat) (raised : Nat) : Bool :=
  match times with
  | none => true
  | some n => raised < n

/-- Resolves the name of a module. -/
def resolveModule (m : TableModule κ) : Call Nat (Except ResolveError Path) := fun raised =>
  let settled : Except ResolveError Path :=
    match m.resolveError with
    | some e => .error e
    | none => .ok m.path
  match m.resolverPanic with
  | some p =>
    if isDue p.times raised then (.error (.text p.message), raised + 1) else (.ok settled, raised)
  | none => (.ok settled, raised)

/-- Resolves a name. -/
def resolve (t : HostTable κ) (name : String) : Call Nat (Except ResolveError Path) :=
  match t.modules.find? fun m => m.name == name with
  | some m => resolveModule m
  | none => Host.answer (.error (.notFound name []))

/-- Says whether there is a loader. -/
def hasLoader (t : HostTable κ) : Call Nat Bool :=
  match t.loader with
  | .absent => Host.answer false
  | .panicking message => fun raised => (.error (.text message), raised)
  | .present => Host.answer true

/-- Loads a path. -/
def load (t : HostTable κ) (path : Path) : Call Nat (Loading κ) :=
  let target := path.components
  match t.modules.find? fun m => m.path.components == target with
  | some m =>
    match m.outcome with
    | .exports table => Host.answer ⟨.ok table, []⟩
    | .failure e => Host.answer ⟨.error e, []⟩
    | .panic p => fun raised => (.error p, raised)
  | none => Host.answer ⟨.error (.ofMessage ("no module at " ++ path.text)), []⟩

/-- The host that a table describes. -/
def host (t : HostTable κ) : Host κ Nat where
  directory := Host.answer t.directory
  resolve name _ := t.resolve name
  hasLoader := t.hasLoader
  load := t.load

end HostTable

end LintDiscovery
