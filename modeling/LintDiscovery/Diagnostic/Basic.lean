/-
Diagnostics.

An `Entry` is what a catalog knows of a message: category, code and template. A `Diagnostic` is an
entry with its template filled; it keeps the arguments, so that it can be worded anew.
-/
import LintDiscovery.Diagnostic.Template
import LintDiscovery.Json.Printer

namespace LintDiscovery

/-- How grave a diagnostic is. -/
inductive Category where
  | error
  | warning
  | message
  deriving DecidableEq, Repr

namespace Category

/-- The name of a category. -/
def name : Category → String
  | error => "error"
  | warning => "warning"
  | message => "message"

/-- The category of that name. -/
def ofName? (name : String) : Option Category :=
  if name = "error" then some .error
  else if name = "warning" then some .warning
  else if name = "message" then some .message
  else none

/-- A category is found by its name. -/
theorem ofName?_name (c : Category) : ofName? c.name = some c := by
  cases c <;> rfl

end Category

/-- A message of a catalog. -/
structure Entry where
  category : Category
  code : Nat
  template : String
  deriving DecidableEq, Repr

/-- A worded diagnostic. -/
structure Diagnostic where
  category : Category
  code : Nat
  message : String
  args : List String
  deriving DecidableEq, Repr

namespace Diagnostic

/-- The diagnostic that an entry gives with arguments. -/
def ofEntry (entry : Entry) (args : List String) : Diagnostic :=
  ⟨entry.category, entry.code, Template.render entry.template args, args⟩

/-- Whether a text is one of the arguments. -/
def mentions (d : Diagnostic) (value : String) : Bool :=
  d.args.contains value

/-- A diagnostic on its own, with category and code. -/
def display (d : Diagnostic) : String :=
  d.category.name ++ " LK" ++ toString d.code ++ ": " ++ d.message

/-- A diagnostic as JSON. -/
def toJson (d : Diagnostic) : Json :=
  .object [
    ("category", .string d.category.name),
    ("code", .number (.integer d.code)),
    ("message", .string d.message),
    ("args", .array (d.args.map .string))]

end Diagnostic

end LintDiscovery
