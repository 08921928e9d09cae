/-
Levels of log records.

Levels are ordered by weight. A journal keeps the records whose level is at least its own.
-/
import LintDiscovery.Text.Blank

namespace LintDiscovery

/-- How much a log record matters. -/
inductive Level where
  | trace
  | debug
  | info
  | warn
  | error
  deriving DecidableEq, Repr

namespace Level

/-- The name of a level. -/
def name : Level → String
  | trace => "trace"
  | debug => "debug"
  | info => "info"
  | warn => "warn"
  | error => "error"

/-- A level in front of a record. -/
def label : Level → String
  | trace => "TRACE"
  | debug => "DEBUG"
  | info => "INFO"
  | warn => "WARN"
  | error => "ERROR"

/-- The weight of a level. -/
def weight : Level → Nat
  | trace => 0
  | debug => 1
  | info => 2
  | warn => 3
  | error => 4

/-- Whether a journal of the first level keeps records of the second. -/
def admits (threshold level : Level) : Bool :=
  threshold.weight ≤ level.weight

/-- The level of that name; a warning may be spelled out. -/
def ofName? (name : String) : Option Level :=
  if name = "trace" then some .trace
  else if name = "debug" then some .debug
  else if name = "info" then some .info
  else if name = "warn" ∨ name = "warning" then some .warn
  else if name = "error" then some .error
  else none

/-- A level is found by its name. -/
theorem ofName?_name (l : Level) : ofName? l.name = some l := by
  cases l <;> rfl

/-- The form in which the name of a level is looked up: trimmed, in lower case. -/
def normalized (text : String) : String :=
  Text.lowerAscii (Text.trim text)

/-- The level where none is asked for. -/
def standard : Level := .debug

end Level

end LintDiscovery
