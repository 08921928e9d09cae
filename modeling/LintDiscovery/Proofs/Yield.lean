/-
What configured names yield.

A configured name yields a module or a diagnostic. `Settles` says which, one rule for each stage that
can decide: the name is not resolved, there is no loader, the path is not loaded, or it is. The rules
follow a host from state to state; `InTurn` strings them together for names in sequence.

* `inTurn_of_run`, `run_of_inTurn` — a load phase that is not interrupted settles every name by
  these rules, and one that can do so is not interrupted;
* `Settles.unique`, `InTurn.unique` — the rules leave no choice.
-/
import LintDiscovery.Discovery.Basic

namespace LintDiscovery

/-- What a configured name yields. -/
inductive Yield (κ : Type) where
  | module (m : LoadedModule κ)
  | diagnostic (d : Diagnostic)

namespace Yield

variable {κ : Type}

/-- The module, if it is one. -/
def module? : Yield κ → Option (LoadedModule κ)
  | module m => some m
  | diagnostic _ => none

/-- The diagnostic, if it is one. -/
def diagnostic? : Yield κ → Option Diagnostic
  | module _ => none
  | diagnostic d => some d

/-- Modules and diagnostics together are as many as the names. -/
theorem length_modules_add_length_diagnostics (ys : List (Yield κ)) :
    (ys.filterMap module?).length + (ys.filterMap diagnostic?).length = ys.length := by
  induction ys with
  | nil => rfl
  | cons y rest ih =>
    cases y with
    | module m =>
      simp only [List.filterMap_cons, module?, diagnostic?, List.length_cons]
      omega
    | diagnostic d =>
      simp only [List.filterMap_cons, module?, diagnostic?, List.length_cons]
      omega

end Yield

/-! ### The rules -/

section

variable {κ σ : Type}

/-- The first stage that fails decides what a name yields; a panic of the loader is a failure to
load. -/
inductive Settles (h : Host κ σ) (file : Path) (name : String) (s : σ) : Yield κ → σ → Prop
  | unresolved {e : ResolveError} {s' : σ} (hr : h.resolve name file s = (.ok (.error e), s')) :
      Settles h file name s (.diagnostic (.ofEntry Catalog.notFound [name])) s'
  | withoutLoader {path : Path} {s₁ s' : σ} (hr : h.resolve name file s = (.ok (.ok path), s₁))
      (hq : h.hasLoader s₁ = (.ok false, s')) :
      Settles h file name s (.diagnostic (.ofEntry Catalog.loadingNotImplemented [])) s'
  | failed {path : Path} {s₁ s₂ s' : σ} {loading : Loading κ} {e : LoadError}
      (hr : h.resolve name file s = (.ok (.ok path), s₁)) (hq : h.hasLoader s₁ = (.ok true, s₂))
      (hl : h.load path s₂ = (.ok loading, s')) (he : loading.result = .error e) :
      Settles h file name s (.diagnostic (.ofEntry Catalog.loadFailed [name, e.detail])) s'
  | panicked {path : Path} {s₁ s₂ s' : σ} {p : Panic}
      (hr : h.resolve name file s = (.ok (.ok path), s₁)) (hq : h.hasLoader s₁ = (.ok true, s₂))
      (hl : h.load path s₂ = (.error p, s')) :
      Settles h file name s
        (.diagnostic (.ofEntry Catalog.loadFailed
          [name, "extension loader panicked: " ++ p.message])) s'
  | loaded {path : Path} {s₁ s₂ s' : σ} {loading : Loading κ} {exports : ExportTable κ}
      (hr : h.resolve name file s = (.ok (.ok path), s₁)) (hq : h.hasLoader s₁ = (.ok true, s₂))
      (hl : h.load path s₂ = (.ok loading, s')) (he : loading.result = .ok exports) :
      Settles h file name s (.module ⟨name, path, exports⟩) s'

/-- A name yields one thing only. -/
theorem Settles.unique {h : Host κ σ} {file : Path} {name : String} {s s' t : σ} {y z : Yield κ}
    (hy : Settles h file name s y s') (hz : Settles h file name s z t) : z = y ∧ t = s' := by
  cases hy <;> cases hz <;> simp_all

/-- Names in sequence, each yielding by `R` from the state that the one before has left. -/
inductive InTurn (R : String → σ → Yield κ → σ → Prop) :
    List String → σ → List (Yield κ) → σ → Prop
  | nil {s : σ} : InTurn R [] s [] s
  | cons {name : String} {rest : List String} {s s₁ s' : σ} {y : Yield κ} {ys : List (Yield κ)}
      (hy : R name s y s₁) (hys : InTurn R rest s₁ ys s') :
      InTurn R (name :: rest) s (y :: ys) s'

namespace InTurn

variable {R Q : String → σ → Yield κ → σ → Prop} {names : List String} {s s' t : σ}
  {ys zs : List (Yield κ)}

theorem mono (hys : InTurn R names s ys s')
    (hRQ : ∀ name s y s', R name s y s' → Q name s y s') : InTurn Q names s ys s' := by
  induction hys with
  | nil => exact .nil
  | cons hy _ ih => exact .cons (hRQ _ _ _ _ hy) ih

theorem unique (hys : InTurn R names s ys s') (hzs : InTurn R names s zs t)
    (hR : ∀ name s y s' z t, R name s y s' → R name s z t → z = y ∧ t = s') :
    zs = ys ∧ t = s' := by
  induction hys generalizing zs t with
  | nil =>
    cases hzs
    exact ⟨rfl, rfl⟩
  | cons hy _ ih =>
    cases hzs with
    | cons hz hzs =>
      obtain ⟨rfl, rfl⟩ := hR _ _ _ _ _ _ hy hz
      obtain ⟨rfl, rfl⟩ := ih hzs
      exact ⟨rfl, rfl⟩

theorem length_eq (hys : InTurn R names s ys s') : ys.length = names.length := by
  induction hys with
  | nil => rfl
  | cons _ _ ih => rw [List.length_cons, List.length_cons, ih]

end InTurn

end

/-! ### Load phases follow the rules -/

namespace SettledName

variable {κ : Type}

/-- What a settled name has yielded. -/
def yield (n : SettledName κ) : Yield κ :=
  match n.fate with
  | .unresolved _ => .diagnostic (Problem.notFound n.name).diagnostic
  | .withoutLoader _ => .diagnostic Problem.loadingNotImplemented.diagnostic
  | .failed _ _ e => .diagnostic (Problem.loadFailed n.name e.detail).diagnostic
  | .loaded path _ exports => .module ⟨n.name, path, exports⟩

theorem module?_yield (n : SettledName κ) : n.yield.module? = n.module? := by
  rcases n with ⟨name, _ | _ | _ | _⟩ <;> rfl

theorem diagnostic?_yield (n : SettledName κ) :
    n.yield.diagnostic? = n.problem?.map Problem.diagnostic := by
  rcases n with ⟨name, _ | _ | _ | _⟩ <;> rfl

end SettledName

namespace LoadPhase

variable {κ σ : Type}

/-- What the settled names of a phase have yielded. -/
def yields (p : LoadPhase κ) : List (Yield κ) :=
  p.settled.map SettledName.yield

theorem filterMap_module?_yields (p : LoadPhase κ) :
    p.yields.filterMap Yield.module? = p.modules := by
  rw [yields, modules, List.filterMap_map]
  exact congrArg (fun f => p.settled.filterMap f) (funext SettledName.module?_yield)

theorem filterMap_diagnostic?_yields (p : LoadPhase κ) :
    p.yields.filterMap Yield.diagnostic? = p.problems.map Problem.diagnostic := by
  rw [yields, problems, List.filterMap_map, List.map_filterMap]
  exact congrArg (fun f => p.settled.filterMap f) (funext SettledName.diagnostic?_yield)

theorem settles_of_settle {h : Host κ σ} {file : Path} {name : String} {s s' : σ} {fate : Fate κ}
    (hs : settle h file name s = (.ok fate, s')) :
    Settles h file name s (SettledName.yield ⟨name, fate⟩) s' := by
  -- stage by stage; the panics that are left out here do not give a fate
  rcases hr : h.resolve name file s with ⟨p | e | path, s₁⟩
  · simp [settle, hr] at hs
  · simp only [settle, hr, Prod.mk.injEq, Except.ok.injEq] at hs
    obtain ⟨rfl, rfl⟩ := hs
    exact .unresolved hr
  rcases hq : h.hasLoader s₁ with ⟨p | _ | _, s₂⟩
  · simp [settle, hr, hq] at hs
  · simp only [settle, hr, hq, Prod.mk.injEq, Except.ok.injEq] at hs
    obtain ⟨rfl, rfl⟩ := hs
    exact .withoutLoader hr hq
  rcases hl : h.load path s₂ with ⟨p | ⟨e | exports, logged⟩, s₃⟩
  · simp only [settle, hr, hq, hl, Fate.ofLoading, Prod.mk.injEq, Except.ok.injEq] at hs
    obtain ⟨rfl, rfl⟩ := hs
    exact .panicked hr hq hl
  · simp only [settle, hr, hq, hl, Fate.ofLoading, Prod.mk.injEq, Except.ok.injEq] at hs
    obtain ⟨rfl, rfl⟩ := hs
    exact .failed hr hq hl rfl
  · simp only [settle, hr, hq, hl, Fate.ofLoading, Prod.mk.injEq, Except.ok.injEq] at hs
    obtain ⟨rfl, rfl⟩ := hs
    exact .loaded hr hq hl rfl

theorem inTurn_of_settleAll {h : Host κ σ} {file : Path} {names : List String} {s : σ}
    (hi : (settleAll h file names s).1.interruption = none) :
    InTurn (Settles h file) names s (settleAll h file names s).1.yields
      (settleAll h file names s).2 := by
  induction names generalizing s with
  | nil => exact .nil
  | cons name rest ih =>
    rcases hs : settle h file name s with ⟨i | fate, s₁⟩
    · simp [settleAll, hs] at hi
    · simp only [settleAll, hs] at hi ⊢
      exact .cons (settles_of_settle hs) (ih hi)

/-- What the rules settle is settled. -/
theorem settle_of_settles {h : Host κ σ} {file : Path} {name : String} {s s' : σ} {y : Yield κ}
    (hy : Settles h file name s y s') :
    ∃ fate, settle h file name s = (.ok fate, s') ∧ SettledName.yield ⟨name, fate⟩ = y := by
  cases hy with
  | @unresolved e _ hr => exact ⟨.unresolved e, by simp [settle, hr], rfl⟩
  | @withoutLoader path _ _ hr hq => exact ⟨.withoutLoader path, by simp [settle, hr, hq], rfl⟩
  | @failed path _ _ _ loading e hr hq hl he =>
    exact ⟨.failed path loading.events e, by simp [settle, hr, hq, hl, Fate.ofLoading, he], rfl⟩
  | @panicked path _ _ _ p hr hq hl =>
    exact ⟨.failed path [] (.ofPanic p), by simp [settle, hr, hq, hl, Fate.ofLoading], rfl⟩
  | @loaded path _ _ _ loading exports hr hq hl he =>
    exact ⟨.loaded path loading.events exports, by simp [settle, hr, hq, hl, Fate.ofLoading, he],
      rfl⟩

theorem settleAll_of_inTurn {h : Host κ σ} {file : Path} {names : List String} {s s' : σ}
    {ys : List (Yield κ)} (hys : InTurn (Settles h file) names s ys s') :
    (settleAll h file names s).1.interruption = none ∧
      (settleAll h file names s).1.yields = ys := by
  induction hys with
  | nil => exact ⟨rfl, rfl⟩
  | cons hy _ ih =>
    obtain ⟨fate, hs, rfl⟩ := settle_of_settles hy
    simp only [settleAll, hs]
    exact ⟨ih.1, congrArg _ ih.2⟩

/-- Names that the rules can settle interrupt nothing. -/
theorem run_of_inTurn {h : Host κ σ} {names : List String} {s s₀ s' : σ} {directory : Option Path}
    {ys : List (Yield κ)} (hd : h.directory s = (.ok directory, s₀))
    (hys : InTurn (Settles h (containingFile directory)) names s₀ ys s') :
    (run h names s).1.interruption = none ∧ (run h names s).1.yields = ys := by
  simp only [run, hd]
  exact settleAll_of_inTurn hys

/-- **A load phase that is not interrupted settles every name**, against the file that goes with the
working directory. -/
theorem inTurn_of_run {h : Host κ σ} {names : List String} {s : σ}
    (hi : (run h names s).1.interruption = none) :
    ∃ directory s₀, h.directory s = (.ok directory, s₀) ∧
      InTurn (Settles h (containingFile directory)) names s₀ (run h names s).1.yields
        (run h names s).2 := by
  rcases hd : h.directory s with ⟨p | directory, s₀⟩
  · simp [run, hd] at hi
  · simp only [run, hd] at hi ⊢
    exact ⟨directory, s₀, rfl, inTurn_of_settleAll hi⟩

end LoadPhase

end LintDiscovery
