/-
Reports of discovery.

A report lists the accepted extensions, group after group, and then every diagnostic. It is written
as text, one extension or diagnostic a line, or as JSON; both show the same in the same order.
-/
import LintDiscovery.About
import LintDiscovery.Discovery.Basic

namespace LintDiscovery

/-- An extension in a report. -/
structure ReportedExtension where
  name : String
  kind : String
  form : String
  deriving DecidableEq, Repr

/-- A report. -/
structure Report where
  extensions : List ReportedExtension
  diagnostics : List Diagnostic
  deriving DecidableEq, Repr

namespace ReportedExtension

/-- A descriptor in a report, under the tag of its group. -/
def ofDescriptor {κ : Type} (tag : String) (d : Descriptor κ) : ReportedExtension :=
  ⟨d.name, tag, d.payload.form⟩

/-- An extension as a line of text. -/
def line (e : ReportedExtension) : String :=
  "  [" ++ e.kind ++ "] " ++ e.name ++ " (" ++ e.form ++ ")"

/-- An extension as JSON. -/
def toJson (e : ReportedExtension) : Json :=
  .object [("name", .string e.name), ("kind", .string e.kind), ("payload", .string e.form)]

end ReportedExtension

namespace Report

/-- The report of what was found. -/
def ofDiscovery {κ : Type} (d : Discovery κ) : Report :=
  ⟨d.groups.toList.flatMap fun g => g.members.map (.ofDescriptor g.tag), d.diagnostics⟩

/-- A report as JSON. -/
def toJson (r : Report) : Json :=
  .object [
    ("version", .string version),
    ("extensions", .array (r.extensions.map ReportedExtension.toJson)),
    ("diagnostics", .array (r.diagnostics.map Diagnostic.toJson))]

/-- A report as lines of text. -/
def lines (r : Report) : List String :=
  (programName ++ " " ++ version) ::
    (if r.extensions.isEmpty then ["no extensions loaded"] else []) ++
      r.extensions.map ReportedExtension.line ++ r.diagnostics.map Diagnostic.display

/-- Lines as a text, each with its end. -/
def unlines (lines : List String) : String :=
  String.join (lines.map fun l => l ++ "\n")

/-- A report as it is printed, as JSON or as text. -/
def text (json : Bool) (r : Report) : String :=
  if json then r.toJson.prettyText ++ "\n" else unlines r.lines

end Report

end LintDiscovery
