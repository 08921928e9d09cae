/-
Descriptors of accepted extensions.

A descriptor says what is known of an extension: its name, the argument it was configured with, its
kind, and what it carries. An extension of a known kind carries the constructor of its walkers, one
of a custom kind the export as it is.
-/
import LintDiscovery.Kind
import LintDiscovery.Module.Export
import LintDiscovery.Module.Timing

namespace LintDiscovery

/-- What an extension carries. -/
inductive Payload (κ : Type) where
  | walker (constructor : κ)
  | uninterpreted (e : Export κ)
  deriving DecidableEq, Repr

namespace Payload

variable {κ : Type}

/-- The name of the form of a payload. -/
def form : Payload κ → String
  | walker _ => "walker"
  | uninterpreted _ => "opaque"

/-- The constructor of walkers, if the payload is one. -/
def constructor? : Payload κ → Option κ
  | walker k => some k
  | uninterpreted _ => none

/-- The export that was passed through, if the payload is one. -/
def export? : Payload κ → Option (Export κ)
  | walker _ => none
  | uninterpreted e => some e

end Payload

/-- An accepted extension. -/
structure Descriptor (κ : Type) where
  name : String
  args : Option Json
  kind : Kind
  payload : Payload κ
  timings : Timings
  deriving DecidableEq

namespace Descriptor

variable {κ : Type}

/-- The name of the extension that an export makes: the module's name for the default export, and
the key in brackets behind it for every other. -/
def nameOf (module key : String) : String :=
  if key = ExportTable.defaultKey then module else module ++ "[" ++ key ++ "]"

/-- A kind described. -/
def inspectKind : Kind → String
  | .custom tag => (Kind.custom tag).label ++ "(" ++ Text.quoted tag ++ ")"
  | k => k.label

/-- A descriptor described; of the timings only their number. -/
def inspect (d : Descriptor κ) : String :=
  "ExtensionDescriptor \x7b name: " ++ Text.quoted d.name ++
    ", args: " ++ Json.inspectOption d.args ++
    ", kind: " ++ inspectKind d.kind ++
    ", payload: " ++ Text.quoted d.payload.form ++
    ", profiles: " ++ toString d.timings.size ++ " \x7d"

/-- The descriptor with other timings. -/
def retime (t : Timings) (d : Descriptor κ) : Descriptor κ :=
  ⟨d.name, d.args, d.kind, d.payload, t⟩

end Descriptor

end LintDiscovery
