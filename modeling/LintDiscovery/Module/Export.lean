/-
Exports of modules.

An export is empty, constructible, or plain data; the last two may carry a tag, which is any JSON
value. Only a tag that is a string makes an export an extension. `κ` is the type of constructors,
about which nothing is assumed here.

An export table keeps its entries in the order in which the module gives them, repeated keys
included.
-/
import LintDiscovery.Json.Printer

namespace LintDiscovery

/-- An exported member of a module. -/
inductive Export (κ : Type) where
  | empty
  | constructible (tag : Option Json) (constructor : κ)
  | data (tag : Option Json) (value : Json)
  deriving DecidableEq, Repr

namespace Export

variable {κ : Type}

/-- The tag of an export, whatever it is. -/
def tag? : Export κ → Option Json
  | empty => none
  | constructible tag _ => tag
  | data tag _ => tag

/-- The tag of an export that is an extension. -/
def kindTag? (e : Export κ) : Option String :=
  e.tag?.bind Json.asString?

/-- Whether there is nothing in the export. -/
def isEmpty : Export κ → Bool
  | empty => true
  | _ => false

/-- The constructor of a constructible export. -/
def constructor? : Export κ → Option κ
  | constructible _ k => some k
  | _ => none

/-- The value of plain data. -/
def value? : Export κ → Option Json
  | data _ v => some v
  | _ => none

/-- The type name of constructible exports. -/
def constructibleType : String := "function"

/-- The name of an export's type. -/
def typeName : Export κ → String
  | empty => "null"
  | constructible _ _ => constructibleType
  | data _ v => v.typeName

/-- A description of an export; constructors are left out. -/
def inspect : Export κ → String
  | empty => "Null"
  | constructible tag _ => "Constructor \x7b kind_tag: " ++ Json.inspectOption tag ++ ", .. \x7d"
  | data tag v =>
    "Value \x7b kind_tag: " ++ Json.inspectOption tag ++ ", value: " ++ v.inspect ++ " \x7d"

end Export

/-- The exports of a module, in order. -/
structure ExportTable (κ : Type) where
  entries : List (String × Export κ)
  deriving DecidableEq, Repr

namespace ExportTable

variable {κ : Type}

/-- The number of entries. -/
def size (t : ExportTable κ) : Nat :=
  t.entries.length

/-- The keys, in order. -/
def keys (t : ExportTable κ) : List String :=
  t.entries.map Prod.fst

/-- The first export of a key. -/
def find? (t : ExportTable κ) (key : String) : Option (Export κ) :=
  (t.entries.find? fun e => e.1 == key).map Prod.snd

/-- The key of the export that a module is named for. -/
def defaultKey : String := "default"

end ExportTable

end LintDiscovery
