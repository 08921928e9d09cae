/-
Diagnostics of an attempt, name by name and export by export.

On a host that panics at most while it loads, an attempt always returns. Every configured name has
then yielded one module or one diagnostic, and what is to be said against the exports of the modules
comes behind what the names yielded.

* `Export.complaint?` — what is to be said against an export;
* `Host.Calm`, `HostTable.calm` — hosts that panic at most while they load;
* `attempt_accounts_for_names` — the whole account.
-/
import LintDiscovery.Host.Table
import LintDiscovery.Proofs.Yield

namespace LintDiscovery

/-! ### Exports -/

/-- What is to be said against an export: it is of a known kind and not constructible, or it is of a
custom kind and these are rejected. Nothing is said against an export without a tag that is a
string. -/
def Export.complaint? {κ : Type} (policy : UnknownKindPolicy) (module key : String)
    (e : Export κ) : Option Diagnostic :=
  match e.tag? with
  | some (.string tag) =>
    if tag ∈ Kind.knownTags then
      match e with
      | .constructible _ _ => none
      | _ => some (.ofEntry Catalog.wrongType [module, key, tag, e.typeName, "function"])
    else if policy = .reject then some (.ofEntry Catalog.kindUnsupported [module, key, tag])
    else none
  | _ => none

namespace Admission

variable {κ : Type}

theorem kindTag?_eq_some_iff (e : Export κ) (tag : String) :
    e.kindTag? = some tag ↔ e.tag? = some (.string tag) := by
  unfold Export.kindTag?
  rcases e.tag? with _ | _ | _ | _ | _ | _ | _ <;> simp [Json.asString?]

theorem diagnostic_judge (policy : UnknownKindPolicy) (module : String) (args : Option Json)
    (entry : String × Export κ) :
    (judge policy module args entry).problem?.map Problem.diagnostic =
      entry.2.complaint? policy module entry.1 := by
  obtain ⟨key, e⟩ := entry
  -- the verdict looks at the kind of the tag, the complaint at the tag itself
  rcases hk : e.kindTag? with _ | tag
  · have hc : e.complaint? policy module key = none := by
      unfold Export.complaint?
      split
      · rename_i tag ht
        rw [(kindTag?_eq_some_iff e tag).mpr ht] at hk
        cases hk
      · rfl
    simp [judge, hk, hc, Verdict.problem?]
  · have ht := (kindTag?_eq_some_iff e tag).mp hk
    have hknown := Kind.isKnown_ofTag tag
    simp only [judge, hk, Export.complaint?, ht, payload?]
    by_cases h : tag ∈ Kind.knownTags
    · have : (Kind.ofTag tag).isKnown = true := by simpa [hknown] using h
      rw [if_pos this, if_pos h]
      cases e with
      | empty => cases ht
      | constructible _ k => rfl
      | data _ v => simp only [Export.constructor?, Option.map_none, this]; rfl
    · have : (Kind.ofTag tag).isKnown = false := by simpa [hknown] using h
      rw [if_neg (by simp [this]), if_neg h]
      cases policy with
      | passThrough => rfl
      | reject => simp only [this]; rfl

/-- The complaints about the exports of a module, in the order of its table. -/
def complaints (policy : UnknownKindPolicy) (m : LoadedModule κ) : List Diagnostic :=
  m.exports.entries.filterMap fun entry => entry.2.complaint? policy m.name entry.1

theorem diagnostics_judgeModule (policy : UnknownKindPolicy) (args : Option Json)
    (m : LoadedModule κ) :
    ((judgeModule policy args m).filterMap Verdict.problem?).map Problem.diagnostic =
      complaints policy m := by
  rw [judgeModule, List.filterMap_map, List.map_filterMap, complaints]
  exact congrArg (fun f => m.exports.entries.filterMap f)
    (funext fun entry => diagnostic_judge policy m.name args entry)

theorem diagnostics_judgeAll (policy : UnknownKindPolicy) (args? : String → Option Json)
    (modules : List (LoadedModule κ)) :
    ((judgeAll policy args? modules).filterMap Verdict.problem?).map Problem.diagnostic =
      modules.flatMap (complaints policy) := by
  rw [judgeAll, List.filterMap_flatMap, List.map_flatMap]
  congr 1
  funext m
  exact diagnostics_judgeModule policy (args? m.name) m

end Admission

namespace Discovery

variable {κ σ : Type}

/-- In an attempt that nothing interrupts, the diagnostics of the names come before those of the
exports. -/
theorem diagnostics_attempt {setting : ExtensionSetting} {policy : UnknownKindPolicy}
    {h : Host κ σ} {s : σ} (hi : (attempt setting policy h s).1.phase.interruption = none) :
    (attempt setting policy h s).1.found.diagnostics =
      (attempt setting policy h s).1.phase.yields.filterMap Yield.diagnostic? ++
        (attempt setting policy h s).1.phase.modules.flatMap (Admission.complaints policy) := by
  rw [LoadPhase.filterMap_diagnostic?_yields, ← Admission.diagnostics_judgeAll,
    ← verdicts_attempt hi, ← List.map_append]
  rfl

end Discovery

/-! ### Hosts that panic at most while they load -/

/-- A host on which no call but to load ends in a panic. -/
structure Host.Calm {κ σ : Type} (h : Host κ σ) : Prop where
  directory (s : σ) : ∃ directory, (h.directory s).1 = .ok directory
  resolve (name : String) (file : Path) (s : σ) : ∃ answer, (h.resolve name file s).1 = .ok answer
  hasLoader (s : σ) : ∃ answer, (h.hasLoader s).1 = .ok answer

namespace LoadPhase

variable {κ σ : Type}

theorem settle_of_calm {h : Host κ σ} (hh : h.Calm) (file : Path) (name : String) (s : σ) :
    ∃ fate s', settle h file name s = (.ok fate, s') := by
  obtain ⟨answer, hr⟩ := hh.resolve name file s
  rcases hres : h.resolve name file s with ⟨p | e | path, s₁⟩
  · rw [hres] at hr
    cases hr
  · exact ⟨.unresolved e, s₁, by simp [settle, hres]⟩
  obtain ⟨present, hq⟩ := hh.hasLoader s₁
  rcases hask : h.hasLoader s₁ with ⟨p | _ | _, s₂⟩
  · rw [hask] at hq
    cases hq
  · exact ⟨.withoutLoader path, s₂, by simp [settle, hres, hask]⟩
  · exact ⟨.ofLoading path (h.load path s₂).1, (h.load path s₂).2, by simp [settle, hres, hask]⟩

theorem interruption_settleAll_of_calm {h : Host κ σ} (hh : h.Calm) (file : Path)
    (names : List String) (s : σ) : (settleAll h file names s).1.interruption = none := by
  induction names generalizing s with
  | nil => rfl
  | cons name rest ih =>
    obtain ⟨fate, s₁, hs⟩ := settle_of_calm hh file name s
    simp only [settleAll, hs]
    exact ih s₁

/-- Nothing interrupts a load phase on such a host. -/
theorem interruption_run_of_calm {h : Host κ σ} (hh : h.Calm) (names : List String) (s : σ) :
    (run h names s).1.interruption = none := by
  obtain ⟨directory, hd⟩ := hh.directory s
  rcases hdir : h.directory s with ⟨p | directory, s₀⟩
  · rw [hdir] at hd
    cases hd
  · simp only [run, hdir]
    exact interruption_settleAll_of_calm hh _ names s₀

end LoadPhase

/-- A table is such a host when its resolver and its loader query never panic. -/
theorem HostTable.calm {κ : Type} {t : HostTable κ}
    (hm : ∀ m ∈ t.modules, m.resolverPanic = none) (hl : ∀ p, t.loader ≠ .panicking p) :
    t.host.Calm where
  directory _ := ⟨t.directory, rfl⟩
  resolve name file s := by
    show ∃ answer, (t.resolve name s).1 = .ok answer
    rcases hfind : t.modules.find? (fun m => m.name == name) with _ | m
    · simp [HostTable.resolve, hfind, Host.answer]
    · simp [HostTable.resolve, hfind, resolveModule, hm m (List.mem_of_find?_eq_some hfind)]
  hasLoader s := by
    show ∃ answer, (t.hasLoader s).1 = .ok answer
    rcases hload : t.loader with _ | message | _
    · simp [HostTable.hasLoader, hload, Host.answer]
    · exact absurd hload (hl message)
    · simp [HostTable.hasLoader, hload, Host.answer]

/-! ### The account -/

/-- **An attempt accounts for every configured name.** On a host that panics at most while it loads,
the attempt returns; the names have yielded a module or a diagnostic each, in their order and in the
only way that the rules allow; and the diagnostics are those of the names, followed by the
complaints about the exports of the modules. -/
theorem Discovery.attempt_accounts_for_names {κ σ : Type} {h : Host κ σ} (hh : h.Calm)
    (setting : ExtensionSetting) (policy : UnknownKindPolicy) (s : σ) :
    ∃ directory s₀ yields a s' d,
      h.directory s = (.ok directory, s₀) ∧
      InTurn (Settles h (containingFile directory)) setting.names s₀ yields s' ∧
      (∀ zs t, InTurn (Settles h (containingFile directory)) setting.names s₀ zs t →
        zs = yields ∧ t = s') ∧
      attempt setting policy h s = (a, s') ∧ a.result = .ok d ∧
      a.phase.modules = yields.filterMap Yield.module? ∧
      a.phase.modules.length + (yields.filterMap Yield.diagnostic?).length =
        setting.names.length ∧
      d.diagnostics = yields.filterMap Yield.diagnostic? ++
        a.phase.modules.flatMap (Admission.complaints policy) := by
  have hi : (attempt setting policy h s).1.phase.interruption = none :=
    LoadPhase.interruption_run_of_calm hh setting.names s
  obtain ⟨directory, s₀, hd, hall⟩ := LoadPhase.inTurn_of_run hi
  refine ⟨directory, s₀, _, (attempt setting policy h s).1, _, _, hd, hall, ?_, rfl,
    Attempt.result_eq_ok_iff.mpr ⟨hi, rfl⟩, ?_, ?_, diagnostics_attempt hi⟩
  · intro zs t hzs
    exact hall.unique hzs fun _ _ _ _ _ _ => Settles.unique
  · exact (LoadPhase.filterMap_module?_yields _).symm
  · show ((LoadPhase.run h setting.names s).1.modules).length + _ = _
    rw [← LoadPhase.filterMap_module?_yields, Yield.length_modules_add_length_diagnostics,
      hall.length_eq]

/-- A table with a module of three exports, one that cannot be read and one that panics. -/
def mixedTable : HostTable Unit where
  modules := [
    ⟨"lint", ⟨"/ext/lint"⟩, none, none, .exports ⟨[
      ("default", .constructible (some (.string "syntactic-lint")) ()),
      ("settings", .data (some (.string "semantic-lint")) .null),
      ("style", .data (some (.string "formatter")) .null)]⟩⟩,
    ⟨"broken", ⟨"/ext/broken"⟩, none, none, .failure ⟨"syntax error", some "at line 1"⟩⟩,
    ⟨"panics", ⟨"/ext/panics"⟩, none, none, .panic .other⟩]
  directory := none
  loader := .present

theorem mixedTable_accounts_for_names :
    mixedTable.host.Calm ∧
      ∃ yields a s' d,
        InTurn (Settles mixedTable.host ⟨"lintconfig.json"⟩)
          ["lint", "ghost", "panics", "broken", "lint"] 0 yields s' ∧
        Discovery.attempt (.list ["lint", "ghost", "panics", "broken", "lint"]) .reject
          mixedTable.host 0 = (a, s') ∧
        a.result = .ok d ∧
        a.phase.modules.length + (yields.filterMap Yield.diagnostic?).length = 5 ∧
        d.diagnostics = yields.filterMap Yield.diagnostic? ++
          a.phase.modules.flatMap (Admission.complaints .reject) := by
  have hh : mixedTable.host.Calm :=
    HostTable.calm (by decide) fun p hp => by cases hp
  obtain ⟨directory, s₀, yields, a, s', d, hd, hall, -, ha, hresult, -, hcount, hdiagnostics⟩ :=
    Discovery.attempt_accounts_for_names hh
      (.list ["lint", "ghost", "panics", "broken", "lint"]) .reject 0
  cases hd
  exact ⟨hh, yields, a, s', d, hall, ha, hresult, hcount, hdiagnostics⟩

example :
    (Discovery.attempt (.list ["lint", "ghost", "panics", "broken", "lint"]) .reject
      mixedTable.host 0).1.problems.map Problem.args = [
        ["ghost"], ["panics", "extension loader panicked: non-string panic payload"],
        ["broken", "syntax error\nat line 1"],
        ["lint", "settings", "semantic-lint", "null", "function"], ["lint", "style", "formatter"],
        ["lint", "settings", "semantic-lint", "null", "function"],
        ["lint", "style", "formatter"]] := by
  decide

end LintDiscovery
