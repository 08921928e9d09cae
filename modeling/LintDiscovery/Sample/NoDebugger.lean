/-
A sample extension.

The extension reports debugger statements with a message that its argument may give, and passes
over interface declarations, which hold no statements. Its module also exports a formatter and its
version.
-/
import LintDiscovery.About
import LintDiscovery.Module.Construction
import LintDiscovery.Visit.Basic

namespace LintDiscovery.NoDebugger

/-- The rule of the extension. -/
def rule : String := "no-debugger"

/-- The message where the argument gives none. -/
def standardMessage : String := "unexpected debugger statement"

/-- The kind of nodes that are reported. -/
def reportedKind : String := "DebuggerStatement"

/-- The kind of nodes whose children are spared. -/
def sparedKind : String := "InterfaceDeclaration"

/-- The message for an argument: its field `message`, if that is a string. -/
def messageOf (args : Option Json) : String :=
  ((args.bind (Json.get? "message")).bind Json.asString?).getD standardMessage

/-- The commands at a node. -/
def commands (message : String) (n : Node) : List Command :=
  if n.kind = reportedKind then [.report (some rule) message .node]
  else if n.kind = sparedKind then [.stop]
  else []

/-- The walker for an argument. -/
def walker (args : Option Json) : Walker Unit :=
  .ofFunction fun n => .ok (commands (messageOf args) n)

/-- The constructor: of its context it looks at the argument alone. -/
def construct {T H P C : Type} (c : Context T H P C) : Walker Unit :=
  walker c.args

/-- The exports of the extension's module, given its constructor. -/
def exports {κ : Type} (constructor : κ) : ExportTable κ :=
  ⟨[(ExportTable.defaultKey, .constructible (some (.string Kind.syntacticTag)) constructor),
    ("formatter",
      .data (some (.string "formatter")) (.object [("indent", .number (.integer 2))])),
    ("version", .data none (.string version))]⟩

end LintDiscovery.NoDebugger
