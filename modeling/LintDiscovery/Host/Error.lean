/-
Failures of hosts.

A host may fail to resolve a name or to load what it resolved. A failure to load may come with a
stack, which the detail repeats in full below the message.
-/
import LintDiscovery.File.Path
import LintDiscovery.Panic

namespace LintDiscovery

/-- A name that leads to no file. -/
inductive ResolveError where
  | invalidName (name : String)
  | notFound (name : String) (searched : List Path)
  | other (message : String)
  deriving DecidableEq, Repr

/-- The wording of a failure to resolve. -/
def ResolveError.text : ResolveError → String
  | .invalidName name => "extension name is invalid: `" ++ name ++ "`"
  | .notFound name searched =>
    "extension `" ++ name ++ "` not found (searched " ++ toString searched.length ++ " paths)"
  | .other message => message

/-- A file that could not be loaded. -/
structure LoadError where
  message : String
  stack : Option String
  deriving DecidableEq, Repr

namespace LoadError

/-- A failure without a stack. -/
def ofMessage (message : String) : LoadError := ⟨message, none⟩

/-- A panic of the loader as a failure. -/
def ofPanic (p : Panic) : LoadError :=
  .ofMessage ("extension loader panicked: " ++ p.message)

/-- The message, and the stack below it. -/
def detail (e : LoadError) : String :=
  match e.stack with
  | some stack => e.message ++ "\n" ++ stack
  | none => e.message

end LoadError

end LintDiscovery
