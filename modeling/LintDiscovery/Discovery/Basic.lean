/-
Discovery.

One attempt at discovery loads the configured names, judges the exports of the modules that were
loaded, and groups what was accepted. Problems of names come first, in the order of the names, then
those of exports, in the order of the modules and their tables. Where the load phase is interrupted,
nothing is judged and the attempt ends in the panic.

* `Discovery.attempt` — an attempt on a host;
* `Attempt.result` — the groups and diagnostics it yields, or the panic it ends in;
* `Attempt.events` — what it logs. The last event is there only when it succeeds;
* `Attempt.result_eq_ok_iff`, `verdicts_attempt` — attempts that nothing interrupts.
-/
import LintDiscovery.Config.Basic
import LintDiscovery.Discovery.Admission
import LintDiscovery.Discovery.Groups

namespace LintDiscovery

/-- What discovery yields. -/
structure Discovery (κ : Type) where
  groups : Groups κ
  diagnostics : List Diagnostic

/-- An attempt at discovery: the number of names, the load phase, and the verdicts. -/
structure Attempt (κ : Type) where
  configured : Nat
  phase : LoadPhase κ
  verdicts : List (Verdict κ)

namespace Attempt

variable {κ : Type}

/-- The accepted extensions, in the order of the verdicts. -/
def descriptors (a : Attempt κ) : List (Descriptor κ) :=
  a.verdicts.filterMap Verdict.descriptor?

/-- All problems, those of names first. -/
def problems (a : Attempt κ) : List Problem :=
  a.phase.problems ++ a.verdicts.filterMap Verdict.problem?

/-- What was found, if nothing interrupted the attempt. -/
def found (a : Attempt κ) : Discovery κ :=
  ⟨.ofList a.descriptors, a.problems.map Problem.diagnostic⟩

/-- The outcome of the attempt. -/
def result (a : Attempt κ) : Except Panic (Discovery κ) :=
  match a.phase.interruption with
  | some i => .error i.panic
  | none => .ok a.found

/-- The closing event, which only an attempt without interruption has. -/
def closing (a : Attempt κ) : List Event :=
  match a.phase.interruption with
  | some _ => []
  | none =>
    [.discoveryFinished a.phase.modules.length a.found.groups.size a.found.diagnostics.length]

/-- The events of the attempt, in order. -/
def events (a : Attempt κ) : List Event :=
  .discoveryStarted a.configured :: a.phase.events ++
    a.verdicts.filterMap Verdict.event? ++ a.closing

/-- An attempt yields what it found, exactly when nothing interrupted it. -/
theorem result_eq_ok_iff {a : Attempt κ} {d : Discovery κ} :
    a.result = .ok d ↔ a.phase.interruption = none ∧ d = a.found := by
  unfold result
  cases a.phase.interruption with
  | none => simp [eq_comm]
  | some i => simp

end Attempt

namespace Discovery

variable {κ σ : Type}

/-- The verdicts on what a load phase yielded; there are none after an interruption. -/
def verdictsOf (setting : ExtensionSetting) (policy : UnknownKindPolicy) (phase : LoadPhase κ) :
    List (Verdict κ) :=
  match phase.interruption with
  | some _ => []
  | none => Admission.judgeAll policy (fun name => setting.args? name) phase.modules

/-- An attempt at discovery on a host. -/
def attempt (setting : ExtensionSetting) (policy : UnknownKindPolicy) (h : Host κ σ) (s : σ) :
    Attempt κ × σ :=
  let (phase, s) := LoadPhase.run h setting.names s
  (⟨setting.size, phase, verdictsOf setting policy phase⟩, s)

/-- An attempt that nothing interrupted has judged all exports of its modules. -/
theorem verdicts_attempt {setting : ExtensionSetting} {policy : UnknownKindPolicy} {h : Host κ σ}
    {s : σ} (hi : (attempt setting policy h s).1.phase.interruption = none) :
    (attempt setting policy h s).1.verdicts =
      Admission.judgeAll policy (fun name => setting.args? name)
        (attempt setting policy h s).1.phase.modules := by
  show verdictsOf setting policy (attempt setting policy h s).1.phase = _
  rw [verdictsOf, hi]

end Discovery

end LintDiscovery
