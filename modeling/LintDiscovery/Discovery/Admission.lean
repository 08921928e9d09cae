/-
Admission of exports.

Every export of a loaded module gets a verdict of its own. Exports that carry no kind are skipped.
One of a known kind has to be constructible; one of a custom kind is a matter of the policy. What is
accepted becomes a descriptor, what is rejected a problem, and skipped exports leave no trace.

* `Admission.judge` — the verdict on one export;
* `Admission.judgeAll` — the verdicts on the exports of all modules;
* `Admission.classify` — the verdicts on a module, taken note of one after the other;
* `Admission.classifyAll` — modules classified one after the other.
-/
import LintDiscovery.Discovery.Loading
import LintDiscovery.Module.Descriptor

namespace LintDiscovery

/-- A tagged export, by its module, its key and its tag. -/
structure TaggedExport where
  module : String
  key : String
  tag : String
  deriving DecidableEq, Repr

/-- The name of the extension that the export would make. -/
def TaggedExport.name (e : TaggedExport) : String :=
  Descriptor.nameOf e.module e.key

/-- What is decided about an export. -/
inductive Verdict (κ : Type) where
  | skipped
  | accepted (d : Descriptor κ)
  | mistyped (e : TaggedExport) (actual : String)
  | unsupported (e : TaggedExport)
  deriving DecidableEq

namespace Verdict

variable {κ : Type}

/-- The descriptor of an accepted export. -/
def descriptor? : Verdict κ → Option (Descriptor κ)
  | accepted d => some d
  | _ => none

/-- The problem of a rejected export. -/
def problem? : Verdict κ → Option Problem
  | mistyped e actual =>
    some (.wrongType e.module e.key e.tag actual Export.constructibleType)
  | unsupported e => some (.kindUnsupported e.module e.key e.tag)
  | _ => none

/-- The event of a verdict. -/
def event? : Verdict κ → Option Event
  | skipped => none
  | accepted d => some (.exportAccepted d.name d.kind.tag)
  | mistyped e actual => some (.exportMistyped e.name e.tag actual)
  | unsupported e => some (.exportUnsupported e.name e.tag)

end Verdict

namespace Admission

variable {κ : Type}

/-- What an export of a kind carries under a policy, unless it is rejected. -/
def payload? (policy : UnknownKindPolicy) (kind : Kind) (e : Export κ) : Option (Payload κ) :=
  if kind.isKnown then e.constructor?.map .walker
  else
    match policy with
    | .passThrough => some (.uninterpreted e)
    | .reject => none

/-- The verdict on an export of a module that is configured with an argument. -/
def judge (policy : UnknownKindPolicy) (module : String) (args : Option Json)
    (entry : String × Export κ) : Verdict κ :=
  match entry.2.kindTag? with
  | none => .skipped
  | some tag =>
    let kind := Kind.ofTag tag
    match payload? policy kind entry.2 with
    | some payload =>
      .accepted ⟨Descriptor.nameOf module entry.1, args, kind, payload, .empty⟩
    | none =>
      if kind.isKnown then .mistyped ⟨module, entry.1, tag⟩ entry.2.typeName
      else .unsupported ⟨module, entry.1, tag⟩

/-- The verdicts on the exports of a module, in order. -/
def judgeModule (policy : UnknownKindPolicy) (args : Option Json) (m : LoadedModule κ) :
    List (Verdict κ) :=
  m.exports.entries.map (judge policy m.name args)

/-- The verdicts on the exports of modules, each configured with its own argument. -/
def judgeAll (policy : UnknownKindPolicy) (args? : String → Option Json)
    (modules : List (LoadedModule κ)) : List (Verdict κ) :=
  modules.flatMap fun m => judgeModule policy (args? m.name) m

end Admission

/-- The extensions accepted from a module so far, and all diagnostics so far. -/
structure Classified (κ : Type) where
  accepted : List (Descriptor κ)
  diagnostics : List Diagnostic

namespace Classified

variable {κ : Type}

/-- One verdict more is taken note of. -/
def note (c : Classified κ) (v : Verdict κ) : Classified κ :=
  ⟨c.accepted ++ v.descriptor?.toList,
    c.diagnostics ++ (v.problem?.map Problem.diagnostic).toList⟩

end Classified

/-- Classifies the exports of a module one after the other, where some diagnostics are there
already. -/
def Admission.classify {κ : Type} (policy : UnknownKindPolicy) (args : Option Json)
    (m : LoadedModule κ) (diagnostics : List Diagnostic) : Classified κ :=
  (judgeModule policy args m).foldl Classified.note ⟨[], diagnostics⟩

/-- Classifies modules one after the other, each configured with its own argument. -/
def Admission.classifyAll {κ : Type} (policy : UnknownKindPolicy) (args? : String → Option Json)
    (modules : List (LoadedModule κ)) (diagnostics : List Diagnostic) : Classified κ :=
  modules.foldl (fun c m =>
    let next := classify policy (args? m.name) m c.diagnostics
    ⟨c.accepted ++ next.accepted, next.diagnostics⟩) ⟨[], diagnostics⟩

end LintDiscovery
