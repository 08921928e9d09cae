/-
Discovery that is remembered.

A `Memo` attempts discovery when its result is first asked for. A result that was reached once is
kept for good, and nothing is attempted any more; an attempt that panics leaves nothing behind, and
the next question starts anew. Only the timings of the descriptors may change later.
-/
import LintDiscovery.Discovery.Basic

namespace LintDiscovery

/-- What to discover, and what has been found. -/
structure Memo (κ : Type) where
  setting : ExtensionSetting
  policy : UnknownKindPolicy
  found : Option (Discovery κ)

/-- An answer of a memo: the result or a panic, and the events on the way to it. -/
structure Demand (κ : Type) where
  result : Except Panic (Discovery κ)
  events : List Event

namespace Memo

variable {κ σ : Type}

/-- A memo that knows nothing yet, with custom kinds passed through. -/
def ofSetting (setting : ExtensionSetting) : Memo κ :=
  ⟨setting, .passThrough, none⟩

/-- The same memo under another policy; what has been found stays. -/
def withPolicy (m : Memo κ) (policy : UnknownKindPolicy) : Memo κ :=
  ⟨m.setting, policy, m.found⟩

/-- A memo for a configuration. -/
def ofConfig (c : Config) : Memo κ :=
  (ofSetting c.extensions).withPolicy c.policy

/-- A memo after an attempt. -/
def after (m : Memo κ) (a : Attempt κ) : Memo κ :=
  match a.result with
  | .ok d => ⟨m.setting, m.policy, some d⟩
  | .error _ => m

/-- The result, attempted on a host unless it is known. -/
def demand (m : Memo κ) (h : Host κ σ) (s : σ) : Demand κ × Memo κ × σ :=
  match m.found with
  | some d => (⟨.ok d, []⟩, m, s)
  | none =>
    let (a, s) := Discovery.attempt m.setting m.policy h s
    (⟨a.result, a.events⟩, m.after a, s)

/-- The memo with other timings for the descriptor at an index under a tag. -/
def retime (m : Memo κ) (tag : String) (index : Nat) (t : Timings) : Memo κ :=
  ⟨m.setting, m.policy, m.found.map fun d => ⟨d.groups.retime tag index t, d.diagnostics⟩⟩

end Memo

end LintDiscovery
