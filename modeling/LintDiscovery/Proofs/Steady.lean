/-
Hosts that answer alike whenever they are asked.

`Answers` are what such a host says to a name, to the question for its loader, and to a path. They
decide what a name yields, whoever was asked for before it and however often. An attempt on the host
then depends on its setting and its policy alone.

* `Host.Gives` — a host gives certain answers, always;
* `HostTable.gives` — tables whose resolver and loader query never panic;
* `Answers.yield`, `yields_run` — a load phase on such a host, name by name;
* `attempt_of_gives` — an attempt on such a host returns.
-/
import LintDiscovery.Proofs.Account
import LintDiscovery.Proofs.Grouping

namespace LintDiscovery

/-- What is answered to names and to paths. Only a path may be answered with a panic. -/
structure Answers (κ : Type) where
  resolve : String → Except ResolveError Path
  hasLoader : Bool
  load : Path → Except Panic (Except LoadError (ExportTable κ))

namespace Answers

variable {κ : Type}

/-- What a name yields by these answers. -/
def yield (a : Answers κ) (name : String) : Yield κ :=
  match a.resolve name with
  | .error _ => .diagnostic (.ofEntry Catalog.notFound [name])
  | .ok path =>
    if a.hasLoader then
      match a.load path with
      | .error p => .diagnostic (.ofEntry Catalog.loadFailed [name, (LoadError.ofPanic p).detail])
      | .ok (.error e) => .diagnostic (.ofEntry Catalog.loadFailed [name, e.detail])
      | .ok (.ok exports) => .module ⟨name, path, exports⟩
    else .diagnostic (.ofEntry Catalog.loadingNotImplemented [])

/-- A module has the name that yields it. -/
theorem name_of_yield {a : Answers κ} {name : String} {m : LoadedModule κ}
    (hm : a.yield name = .module m) : m.name = name := by
  unfold yield at hm
  split at hm
  · cases hm
  · split at hm
    · split at hm
      · cases hm
      · cases hm
      · cases hm
        rfl
    · cases hm

/-- The modules that names yield. -/
def modules (a : Answers κ) (names : List String) : List (LoadedModule κ) :=
  (names.map a.yield).filterMap Yield.module?

/-- The diagnostics that names yield. -/
def diagnostics (a : Answers κ) (names : List String) : List Diagnostic :=
  (names.map a.yield).filterMap Yield.diagnostic?

@[simp]
theorem modules_append (a : Answers κ) (xs ys : List String) :
    a.modules (xs ++ ys) = a.modules xs ++ a.modules ys := by
  simp [modules]

@[simp]
theorem diagnostics_append (a : Answers κ) (xs ys : List String) :
    a.diagnostics (xs ++ ys) = a.diagnostics xs ++ a.diagnostics ys := by
  simp [diagnostics]

theorem name_mem_of_mem_modules {a : Answers κ} {names : List String} {m : LoadedModule κ}
    (hm : m ∈ a.modules names) : m.name ∈ names := by
  obtain ⟨y, hy, hym⟩ := List.mem_filterMap.mp hm
  obtain ⟨name, hname, rfl⟩ := List.mem_map.mp hy
  rcases hyield : a.yield name with m' | d
  · rw [hyield] at hym
    cases hym
    rw [name_of_yield hyield]
    exact hname
  · rw [hyield] at hym
    cases hym

end Answers

/-- A host that gives certain answers whenever it is asked, and on which no call but to load ends in
a panic. The working directory may move, as long as names lead to the same paths. -/
structure Host.Gives {κ σ : Type} (h : Host κ σ) (a : Answers κ) : Prop where
  directory (s : σ) : ∃ directory, (h.directory s).1 = .ok directory
  resolve (name : String) {s : σ} {directory : Option Path}
    (hd : (h.directory s).1 = .ok directory) (t : σ) :
    (h.resolve name (containingFile directory) t).1 = .ok (a.resolve name)
  hasLoader (s : σ) : (h.hasLoader s).1 = .ok a.hasLoader
  load (path : Path) (s : σ) : (h.load path s).1.map Loading.result = a.load path

/-! ### Tables -/

namespace HostTable

variable {κ : Type}

/-- The answers that a table holds, panics of its resolver and its loader query apart. -/
def answers (t : HostTable κ) : Answers κ where
  resolve name :=
    match t.modules.find? fun m => m.name == name with
    | some m =>
      match m.resolveError with
      | some e => .error e
      | none => .ok m.path
    | none => .error (.notFound name [])
  hasLoader := t.loader = .present
  load path := (t.load path 0).1.map Loading.result

/-- A table gives its answers when its resolver and its loader query never panic. -/
theorem gives {t : HostTable κ} (hm : ∀ m ∈ t.modules, m.resolverPanic = none)
    (hl : ∀ p, t.loader ≠ .panicking p) : t.host.Gives t.answers where
  directory _ := ⟨t.directory, rfl⟩
  resolve name _ _ _ s := by
    show (t.resolve name s).1 = _
    rcases hfind : t.modules.find? (fun m => m.name == name) with _ | m
    · simp [HostTable.resolve, answers, hfind, Host.answer]
    · have hp : m.resolverPanic = none := hm m (List.mem_of_find?_eq_some hfind)
      rcases he : m.resolveError with _ | e <;>
        simp [HostTable.resolve, answers, hfind, resolveModule, hp, he]
  hasLoader s := by
    show (t.hasLoader s).1 = _
    rcases hload : t.loader with _ | message | _
    · simp [HostTable.hasLoader, answers, hload, Host.answer]
    · exact absurd hload (hl message)
    · simp [HostTable.hasLoader, answers, hload, Host.answer]
  load path s := by
    show (t.load path s).1.map Loading.result = (t.load path 0).1.map Loading.result
    rcases hfind : t.modules.find? (fun m => m.path.components == path.components) with _ | m
    · simp [HostTable.load, hfind, Host.answer]
    · rcases ho : m.outcome with table | e | p <;> simp [HostTable.load, hfind, ho, Host.answer]

end HostTable

/-! ### Load phases -/

namespace LoadPhase

variable {κ σ : Type} {h : Host κ σ} {a : Answers κ}

/-- One name, settled against the file that goes with the working directory. -/
theorem settle_of_gives (hh : h.Gives a) {s₀ : σ} {directory : Option Path}
    (hd : (h.directory s₀).1 = .ok directory) (name : String) (s : σ) :
    ∃ fate s', settle h (containingFile directory) name s = (.ok fate, s') ∧
      SettledName.yield ⟨name, fate⟩ = a.yield name := by
  have hr := hh.resolve name hd s
  rcases hres : h.resolve name (containingFile directory) s with ⟨p | e | path, s₁⟩
  · rw [hres] at hr
    cases hr
  · rw [hres] at hr
    have ha : a.resolve name = .error e := (Except.ok.inj hr).symm
    refine ⟨.unresolved e, s₁, by simp [settle, hres], ?_⟩
    rw [Answers.yield, ha]
    rfl
  have ha : a.resolve name = .ok path := by
    rw [hres] at hr
    exact (Except.ok.inj hr).symm
  have hq := hh.hasLoader s₁
  rcases hask : h.hasLoader s₁ with ⟨p | _ | _, s₂⟩
  · rw [hask] at hq
    cases hq
  · rw [hask] at hq
    have hb : a.hasLoader = false := (Except.ok.inj hq).symm
    refine ⟨.withoutLoader path, s₂, by simp [settle, hres, hask], ?_⟩
    simp only [Answers.yield, ha, hb]
    rfl
  have hb : a.hasLoader = true := by
    rw [hask] at hq
    exact (Except.ok.inj hq).symm
  have hl := hh.load path s₂
  refine ⟨.ofLoading path (h.load path s₂).1, (h.load path s₂).2, by simp [settle, hres, hask], ?_⟩
  rcases hcall : h.load path s₂ with ⟨p | ⟨e | exports, events⟩, s₃⟩
  · rw [hcall] at hl
    have hc : a.load path = .error p := hl.symm
    simp only [Answers.yield, ha, hb, hc]
    rfl
  · rw [hcall] at hl
    have hc : a.load path = .ok (.error e) := hl.symm
    simp only [Answers.yield, ha, hb, hc]
    rfl
  · rw [hcall] at hl
    have hc : a.load path = .ok (.ok exports) := hl.symm
    simp only [Answers.yield, ha, hb, hc]
    rfl

theorem yields_settleAll (hh : h.Gives a) {s₀ : σ} {directory : Option Path}
    (hd : (h.directory s₀).1 = .ok directory) (names : List String) (s : σ) :
    (settleAll h (containingFile directory) names s).1.interruption = none ∧
      (settleAll h (containingFile directory) names s).1.yields = names.map a.yield := by
  induction names generalizing s with
  | nil => exact ⟨rfl, rfl⟩
  | cons name rest ih =>
    obtain ⟨fate, s₁, hs, hyield⟩ := settle_of_gives hh hd name s
    obtain ⟨hi, hyields⟩ := ih s₁
    simp only [settleAll, hs]
    refine ⟨hi, ?_⟩
    rw [List.map_cons, ← hyields, ← hyield]
    rfl

/-- Nothing interrupts a load phase on such a host, and its names yield what the answers say. -/
theorem yields_run (hh : h.Gives a) (names : List String) (s : σ) :
    (run h names s).1.interruption = none ∧ (run h names s).1.yields = names.map a.yield := by
  obtain ⟨directory, hd⟩ := hh.directory s
  rcases hdir : h.directory s with ⟨p | directory', s₀⟩
  · rw [hdir] at hd
    cases hd
  · have hd' : (h.directory s).1 = .ok directory' := by rw [hdir]
    simp only [run, hdir]
    exact yields_settleAll hh hd' names s₀

end LoadPhase

/-! ### Attempts -/

namespace Attempt

variable {κ : Type}

/-- The diagnostics of the names. -/
def nameDiagnostics (a : Attempt κ) : List Diagnostic :=
  a.phase.problems.map Problem.diagnostic

/-- The diagnostics of the exports. -/
def exportDiagnostics (a : Attempt κ) : List Diagnostic :=
  (a.verdicts.filterMap Verdict.problem?).map Problem.diagnostic

theorem diagnostics_found (a : Attempt κ) :
    a.found.diagnostics = a.nameDiagnostics ++ a.exportDiagnostics :=
  List.map_append

end Attempt

namespace Discovery

variable {κ σ : Type} {h : Host κ σ} {a : Answers κ}

/-- What a setting accepts of what its names yield. -/
def acceptedOf (a : Answers κ) (setting : ExtensionSetting) (policy : UnknownKindPolicy) :
    List (Descriptor κ) :=
  (a.modules setting.names).flatMap fun m =>
    Admission.accepted policy m.name (setting.args? m.name) m.exports.entries

/-- What an attempt finds on such a host. -/
structure FollowsAnswers (a : Answers κ) (setting : ExtensionSetting) (policy : UnknownKindPolicy)
    (x : Attempt κ) : Prop where
  result : x.result = .ok x.found
  modules : x.phase.modules = a.modules setting.names
  descriptors : x.descriptors = acceptedOf a setting policy
  nameDiagnostics : x.nameDiagnostics = a.diagnostics setting.names
  exportDiagnostics : x.exportDiagnostics =
    (a.modules setting.names).flatMap (Admission.complaints policy)

theorem FollowsAnswers.groups {setting : ExtensionSetting}
    {policy : UnknownKindPolicy} {x : Attempt κ} (hx : FollowsAnswers a setting policy x) :
    x.found.groups = .ofList (acceptedOf a setting policy) :=
  congrArg Groups.ofList hx.descriptors

/-- **An attempt follows the answers of its host**, whatever state the host is in. -/
theorem attempt_of_gives (hh : h.Gives a) (setting : ExtensionSetting) (policy : UnknownKindPolicy)
    (s : σ) : FollowsAnswers a setting policy (attempt setting policy h s).1 := by
  obtain ⟨hi, hyields⟩ := LoadPhase.yields_run hh setting.names s
  have hmodules : (attempt setting policy h s).1.phase.modules = a.modules setting.names := by
    rw [Answers.modules, ← hyields, LoadPhase.filterMap_module?_yields]
    rfl
  have hverdicts : (attempt setting policy h s).1.verdicts = Admission.judgeAll policy
      (fun name => setting.args? name) (attempt setting policy h s).1.phase.modules :=
    verdicts_attempt hi
  refine ⟨Attempt.result_eq_ok_iff.mpr ⟨hi, rfl⟩, hmodules, ?_, ?_, ?_⟩
  · rw [Attempt.descriptors, hverdicts, Admission.descriptors_judgeAll, hmodules, acceptedOf]
  · rw [Answers.diagnostics, ← hyields, LoadPhase.filterMap_diagnostic?_yields]
    rfl
  · rw [Attempt.exportDiagnostics, hverdicts, Admission.diagnostics_judgeAll, hmodules]

end Discovery

end LintDiscovery
