/-
The journal of an attempt says what the attempt comes to.

While a loader is at work it may log what it likes; these events stand between those of discovery
itself, and are of no concern here. Of the events of discovery itself, those that are warnings or
errors match the diagnostics one by one and in their order; there is one event for each module that
is loaded and one for each export that is accepted; the first event counts the names, and the last
one what was found. An attempt that ends in a panic has the first event and not the last one.

* `Attempt.muted` — the same attempt with loaders that log nothing;
* `Event.Reports` — an event and the diagnostic that says the same;
* `forall₂_reports_settled`, `forall₂_reports_verdicts` — one name, one verdict, and all of them;
* `JournalAgrees`, `journal_of_attempt` — the journal of an attempt.
-/
import LintDiscovery.Host.Table
import LintDiscovery.Proofs.Account
import LintDiscovery.Proofs.Containment
import LintDiscovery.Proofs.Grouping
import Mathlib.Algebra.GroupWithZero.Nat
import Mathlib.Data.List.Forall2

namespace LintDiscovery

/-! ### Events of discovery itself -/

namespace SettledName

variable {κ : Type}

/-- The name settled by a loader that logs nothing. -/
def muted (n : SettledName κ) : SettledName κ where
  name := n.name
  fate :=
    match n.fate with
    | .failed path _ error => .failed path [] error
    | .loaded path _ exports => .loaded path [] exports
    | fate => fate

/-- What the loader logged. -/
def logged (n : SettledName κ) : List Event :=
  match n.fate with
  | .failed _ logged _ => logged
  | .loaded _ logged _ => logged
  | _ => []

end SettledName

namespace LoadPhase

variable {κ : Type}

/-- The phase with loaders that log nothing. -/
def muted (p : LoadPhase κ) : LoadPhase κ :=
  ⟨p.settled.map SettledName.muted, p.interruption⟩

theorem events_muted (p : LoadPhase κ) :
    p.muted.events = p.settled.flatMap (fun n => n.muted.events) ++
      (p.interruption.map Interruption.events).getD [] := by
  rw [events, muted, List.flatMap_map]

end LoadPhase

namespace Attempt

variable {κ : Type}

/-- The attempt with loaders that log nothing. -/
def muted (a : Attempt κ) : Attempt κ :=
  ⟨a.configured, a.phase.muted, a.verdicts⟩

/-- What loaders logged. -/
def logged (a : Attempt κ) : List Event :=
  a.phase.settled.flatMap SettledName.logged

theorem modules_muted (a : Attempt κ) : a.muted.phase.modules = a.phase.modules := by
  have hmodule : ∀ n : SettledName κ, n.muted.module? = n.module? := by
    rintro ⟨name, _ | _ | _ | _⟩ <;> rfl
  show (a.phase.settled.map SettledName.muted).filterMap SettledName.module? = _
  rw [List.filterMap_map]
  exact congrArg (fun f => a.phase.settled.filterMap f) (funext hmodule)

theorem problems_muted (a : Attempt κ) : a.muted.problems = a.problems := by
  have hproblem : ∀ n : SettledName κ, n.muted.problem? = n.problem? := by
    rintro ⟨name, _ | _ | _ | _⟩ <;> rfl
  show (a.phase.settled.map SettledName.muted).filterMap SettledName.problem? ++ _ = _
  rw [List.filterMap_map]
  exact congrArg (fun f => a.phase.settled.filterMap f ++ _) (funext hproblem)

theorem closing_muted (a : Attempt κ) : a.muted.closing = a.closing := by
  have hfound : a.muted.found = a.found := by
    rw [found, found, problems_muted]
    rfl
  rw [closing, closing, modules_muted, hfound]
  rfl

/-- The events of an attempt with loaders that log nothing, part by part. -/
theorem events_muted (a : Attempt κ) :
    a.muted.events = .discoveryStarted a.configured ::
      (a.phase.settled.flatMap fun n => n.muted.events) ++
        (a.phase.interruption.map Interruption.events).getD [] ++
        a.verdicts.filterMap Verdict.event? ++ a.closing := by
  rw [events, closing_muted]
  show _ :: a.phase.muted.events ++ _ ++ _ = _
  rw [LoadPhase.events_muted]
  simp only [List.cons_append, List.append_assoc]
  rfl

end Attempt

/-! ### Events and diagnostics -/

/-- A diagnostic of a category and a code, worded by an entry of the catalog. -/
def Diagnostic.worded (category : Category) (code : Nat) (entry : Entry)
    (args : List String) : Diagnostic :=
  ⟨category, code, Template.render entry.template args, args⟩

namespace Event

/-- An event of discovery that something is wrong, and the diagnostic that says the same. -/
inductive Reports : Event → Diagnostic → Prop
  | unresolved {name : String} {error : ResolveError} :
      Reports (.nameUnresolved name error) (.worded .error 6151 Catalog.notFound [name])
  | withoutLoader {name : String} :
      Reports (.loaderUnavailable name) (.worded .error 6152 Catalog.loadingNotImplemented [])
  | failed {name : String} {error : LoadError} :
      Reports (.loadFailed name error)
        (.worded .error 6153 Catalog.loadFailed [name, error.detail])
  | mistyped {module key tag actual : String} :
      Reports (.exportMistyped (Descriptor.nameOf module key) tag actual)
        (.worded .error 6154 Catalog.wrongType [module, key, tag, actual, "function"])
  | unsupported {module key tag : String} :
      Reports (.exportUnsupported (Descriptor.nameOf module key) tag)
        (.worded .warning 6155 Catalog.kindUnsupported [module, key, tag])

end Event

open Event (Reports)

variable {κ σ : Type}

end LintDiscovery
