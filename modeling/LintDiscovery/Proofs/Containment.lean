/-
Which failures of a host a load phase contains.

A load phase is to turn every failure of its host into one diagnostic, panics included, and to go on
with the next name. It does so for whatever becomes of loading a path. A panic of any other call
leaves the phase instead, and the names behind it are not looked at.

* `Contained` — failures stay within the phase;
* `contained_iff` — they do exactly when no call but to load panics;
* `not_contained_brittleTable` — a resolver that panics is enough.
-/
import LintDiscovery.Host.Table
import LintDiscovery.Proofs.Transcript
import LintDiscovery.Proofs.Yield

namespace LintDiscovery.LoadPhase

variable {κ σ : Type}

/-- What is to come of a name: one diagnostic, whatever it says, when a call made for the name does
not get what it asks for, be it that the host declines or that it panics; otherwise the module. -/
inductive Recorded (h : Host κ σ) (file : Path) (name : String) (s : σ) : Yield κ → σ → Prop
  | unresolved {answer : Except Panic (Except ResolveError Path)} {d : Diagnostic} {s' : σ}
      (hr : h.resolve name file s = (answer, s')) (ha : ∀ path, answer ≠ .ok (.ok path)) :
      Recorded h file name s (.diagnostic d) s'
  | withoutLoader {path : Path} {answer : Except Panic Bool} {d : Diagnostic} {s₁ s' : σ}
      (hr : h.resolve name file s = (.ok (.ok path), s₁)) (hq : h.hasLoader s₁ = (answer, s'))
      (ha : answer ≠ .ok true) : Recorded h file name s (.diagnostic d) s'
  | notLoaded {path : Path} {answer : Except Panic (Loading κ)} {d : Diagnostic} {s₁ s₂ s' : σ}
      (hr : h.resolve name file s = (.ok (.ok path), s₁)) (hq : h.hasLoader s₁ = (.ok true, s₂))
      (hl : h.load path s₂ = (answer, s'))
      (ha : ∀ loading exports, answer = .ok loading → loading.result ≠ .ok exports) :
      Recorded h file name s (.diagnostic d) s'
  | loaded {path : Path} {loading : Loading κ} {exports : ExportTable κ} {s₁ s₂ s' : σ}
      (hr : h.resolve name file s = (.ok (.ok path), s₁)) (hq : h.hasLoader s₁ = (.ok true, s₂))
      (hl : h.load path s₂ = (.ok loading, s')) (he : loading.result = .ok exports) :
      Recorded h file name s (.module ⟨name, path, exports⟩) s'

theorem recorded_of_settles {h : Host κ σ} {file : Path} {name : String} {s s' : σ} {y : Yield κ}
    (hy : Settles h file name s y s') : Recorded h file name s y s' := by
  cases hy with
  | unresolved hr =>
    refine .unresolved hr ?_
    rintro path ⟨⟩
  | withoutLoader hr hq =>
    refine .withoutLoader hr hq ?_
    rintro ⟨⟩
  | failed hr hq hl he =>
    refine .notLoaded hr hq hl ?_
    rintro _ exports ⟨⟩ hexports
    rw [he] at hexports
    cases hexports
  | panicked hr hq hl =>
    refine .notLoaded hr hq hl ?_
    rintro _ _ ⟨⟩
  | loaded hr hq hl he => exact .loaded hr hq hl he

/-- Failures of a host stay within a load phase: it returns, and every name in turn has led to its
module or is recorded by one diagnostic. A phase that guards all its calls could have this on every
host. -/
structure Contained (h : Host κ σ) (names : List String) (s : σ) : Prop where
  returns : (run h names s).1.interruption = none
  records : ∃ file yields,
    (∀ directory, (h.directory s).1 = .ok directory → file = containingFile directory) ∧
    InTurn (Recorded h file) names (h.directory s).2 yields (run h names s).2 ∧
    (run h names s).1.modules = yields.filterMap Yield.module? ∧
    (run h names s).1.problems.map Problem.diagnostic = yields.filterMap Yield.diagnostic?

/-- A phase that returns has accounted for all names. -/
theorem contained_of_returns {h : Host κ σ} {names : List String} {s : σ}
    (hi : (run h names s).1.interruption = none) : Contained h names s := by
  obtain ⟨directory, s₀, hd, hall⟩ := inTurn_of_run hi
  refine ⟨hi, containingFile directory, _, ?_, ?_, (filterMap_module?_yields _).symm,
    (filterMap_diagnostic?_yields _).symm⟩
  · intro directory' hd'
    rw [hd, Except.ok.injEq] at hd'
    rw [hd']
  · rw [hd]
    exact hall.mono fun _ _ _ _ => recorded_of_settles

/-- **A load phase contains the failures of its host exactly when no call but to load panics.** With
the calls that the phase makes and their answers on a transcript, the first such panic is what the
phase ends in, and the names behind it have not been asked for. -/
theorem contained_iff (h : Host κ σ) (names : List String) (s : σ) :
    ∃ transcript,
      run h.transcribed names (s, []) = ((run h names s).1, ((run h names s).2, transcript)) ∧
      (Contained h names s ↔ ∀ x ∈ transcript, x.escape? = none) ∧
      (run h names s).1.interruption.map Interruption.panic =
        transcript.findSome? Exchange.escape? ∧
      transcript.filterMap Exchange.name? = (run h names s).1.asked ∧
      (run h names s).1.asked <+: names := by
  obtain ⟨u, hu, hnames, hescape⟩ := exists_exchanges_run h names s
  refine ⟨u, hu.noted [], ⟨fun hc => ?_, fun hnone => ?_⟩, hescape.symm, hnames,
    (asked_run h names s).1⟩
  · rw [hc.returns] at hescape
    exact List.findSome?_eq_none_iff.mp hescape
  · refine contained_of_returns ?_
    rw [List.findSome?_eq_none_iff.mpr hnone] at hescape
    exact Option.map_eq_none_iff.mp hescape.symm

/-- A table with a module whose name cannot be resolved without a panic, and one without fault. -/
def brittleTable : HostTable Unit where
  modules := [
    ⟨"bad", ⟨"/ext/bad"⟩, some ⟨"boom", none⟩, none, .exports ⟨[]⟩⟩,
    ⟨"good", ⟨"/ext/good"⟩, none, none, .exports ⟨[]⟩⟩]
  directory := none
  loader := .present

/-- The panic of the resolver ends the phase, and the module behind it, which loads on its own, is
not looked at. -/
theorem not_contained_brittleTable :
    ¬ Contained brittleTable.host ["bad", "good"] 0 ∧
      (run brittleTable.host ["bad", "good"] 0).1.interruption =
        some (.resolver "bad" (.text "boom")) ∧
      (run brittleTable.host ["bad", "good"] 0).1.problems = [] ∧
      (run brittleTable.host ["bad", "good"] 0).1.asked = ["bad"] ∧
      (run brittleTable.host ["good"] 0).1.modules = [⟨"good", ⟨"/ext/good"⟩, ⟨[]⟩⟩] := by
  have hi : (run brittleTable.host ["bad", "good"] 0).1.interruption =
      some (.resolver "bad" (.text "boom")) := by decide
  refine ⟨fun hc => ?_, hi, by decide, by decide, rfl⟩
  rw [hc.returns] at hi
  cases hi

end LintDiscovery.LoadPhase
