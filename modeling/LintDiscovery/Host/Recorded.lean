/-
Hosts that keep a record of the calls made on them.

`Host.recorded` turns a host into one that answers alike and also notes each call before it is
answered, so that calls which panic are on the record, too.
-/
import LintDiscovery.Host.Basic

namespace LintDiscovery

/-- A call made on a host. -/
inductive HostCall where
  | directory
  | resolve (name : String) (containing : Path)
  | hasLoader
  | load (path : Path)
  deriving DecidableEq, Repr

namespace HostCall

/-- The name and the file of a call to resolve. -/
def resolution? : HostCall → Option (String × Path)
  | resolve name containing => some (name, containing)
  | _ => none

/-- The path of a call to load. -/
def load? : HostCall → Option Path
  | load path => some path
  | _ => none

end HostCall

namespace Host

variable {κ σ : Type}

/-- A call that is also noted. -/
def noting {α : Type} (call : HostCall) (f : Call σ α) : Call (σ × List HostCall) α :=
  fun (s, calls) =>
    let (a, s) := f s
    (a, (s, calls ++ [call]))

/-- The same host with a record of its calls. -/
def recorded (h : Host κ σ) : Host κ (σ × List HostCall) where
  directory := noting .directory h.directory
  resolve name containing := noting (.resolve name containing) (h.resolve name containing)
  hasLoader := noting .hasLoader h.hasLoader
  load path := noting (.load path) (h.load path)

end Host

end LintDiscovery
