/-
The catalog of diagnostics.

A `Problem` is something that went wrong with one name or one export. Each problem has one entry in
the catalog, and the arguments for the slots of that entry.
-/
import LintDiscovery.Diagnostic.Basic

namespace LintDiscovery

/-- Something that went wrong with a name or an export. -/
inductive Problem where
  | notFound (name : String)
  | loadingNotImplemented
  | loadFailed (name detail : String)
  | wrongType (module key tag actual expected : String)
  | kindUnsupported (module key tag : String)
  deriving DecidableEq, Repr

namespace Catalog

/-- A configured name leads to no file. -/
def notFound : Entry :=
  ⟨.error, 6151, "Extension '\x7b0\x7d' could not be found."⟩

/-- The host cannot load anything. -/
def loadingNotImplemented : Entry :=
  ⟨.error, 6152, "Extension loading not implemented by host."⟩

/-- A file was found and could not be loaded. -/
def loadFailed : Entry :=
  ⟨.error, 6153, "Extension '\x7b0\x7d' could not be loaded because of the error: \x7b1\x7d"⟩

/-- An export of a known kind cannot be constructed. -/
def wrongType : Entry :=
  ⟨.error, 6154, "Extension '\x7b0\x7d' exported member '\x7b1\x7d' has extension kind " ++
    "'\x7b2\x7d', but was type '\x7b3\x7d' when type '\x7b4\x7d' was expected."⟩

/-- An export of a custom kind while custom kinds are rejected. -/
def kindUnsupported : Entry :=
  ⟨.warning, 6155, "Extension '\x7b0\x7d' exported member '\x7b1\x7d' declares unsupported " ++
    "extension kind '\x7b2\x7d'."⟩

/-- All entries, by name. -/
def entries : List (String × Entry) := [
  ("not_found", notFound),
  ("loading_not_implemented", loadingNotImplemented),
  ("load_failed", loadFailed),
  ("wrong_type", wrongType),
  ("kind_unsupported", kindUnsupported)]

end Catalog

namespace Problem

/-- The entry of a problem. -/
def entry : Problem → Entry
  | notFound _ => Catalog.notFound
  | loadingNotImplemented => Catalog.loadingNotImplemented
  | loadFailed _ _ => Catalog.loadFailed
  | wrongType _ _ _ _ _ => Catalog.wrongType
  | kindUnsupported _ _ _ => Catalog.kindUnsupported

/-- The arguments of a problem, in the order of the slots. -/
def args : Problem → List String
  | notFound name => [name]
  | loadingNotImplemented => []
  | loadFailed name detail => [name, detail]
  | wrongType module key tag actual expected => [module, key, tag, actual, expected]
  | kindUnsupported module key tag => [module, key, tag]

/-- A problem as a diagnostic. -/
def diagnostic (p : Problem) : Diagnostic :=
  .ofEntry p.entry p.args

end Problem

end LintDiscovery
