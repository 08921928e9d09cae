/-
What comes of the exports of a module.

Each export of a module has a fate of its own, whatever the others are: it leaves no trace, it
becomes an extension, or it is complained about. `Fares` says which, one rule for each way, by what
the export is and by the policy. Classifying a module adds the complaints behind the diagnostics
that were there before and changes nothing else about them.

* `Fares.unique` — the rules leave no choice;
* `fares_judge` — verdicts follow the rules;
* `classify_eq` — classifying one export after the other comes to the verdicts on all of them;
* `classify_fares` — the fates of the exports of a module.
-/
import LintDiscovery.Proofs.Account
import LintDiscovery.Proofs.Grouping
import Mathlib.Data.List.Forall2

namespace LintDiscovery

variable {κ : Type}

/-- What comes of an export. -/
inductive ExportFate (κ : Type) where
  | silent
  | extension (x : Descriptor κ)
  | diagnostic (d : Diagnostic)

namespace ExportFate

/-- The extension that an export has become, if it has. -/
def extension? : ExportFate κ → Option (Descriptor κ)
  | extension x => some x
  | _ => none

/-- The diagnostic about an export, if there is one. -/
def diagnostic? : ExportFate κ → Option Diagnostic
  | diagnostic d => some d
  | _ => none

end ExportFate

/-- The fate that a verdict amounts to. -/
def Verdict.fate : Verdict κ → ExportFate κ
  | skipped => .silent
  | accepted x => .extension x
  | mistyped e actual =>
    .diagnostic (.ofEntry Catalog.wrongType [e.module, e.key, e.tag, actual, "function"])
  | unsupported e => .diagnostic (.ofEntry Catalog.kindUnsupported [e.module, e.key, e.tag])

namespace Verdict

theorem diagnostic?_fate (v : Verdict κ) :
    v.fate.diagnostic? = v.problem?.map Problem.diagnostic := by
  cases v <;> rfl

end Verdict

namespace Admission

/-! ### The rules -/

/-- How an export of a module fares. One whose tag is not a string leaves no trace, and an empty one
has no tag. One of a known kind has to be constructible; one of a custom kind may be anything, and
the policy decides. -/
inductive Fares (policy : UnknownKindPolicy) (module : String) (args : Option Json)
    (entry : String × Export κ) : ExportFate κ → Prop
  | silent (he : ∀ tag, entry.2.tag? ≠ some (.string tag)) :
      Fares policy module args entry .silent
  | walker {tag : String} {constructor : κ}
      (he : entry.2 = .constructible (some (.string tag)) constructor)
      (hknown : tag ∈ Kind.knownTags) :
      Fares policy module args entry (.extension
        ⟨if entry.1 = "default" then module else module ++ "[" ++ entry.1 ++ "]", args,
          .ofTag tag, .walker constructor, .empty⟩)
  | mistyped {tag : String} {value : Json} (he : entry.2 = .data (some (.string tag)) value)
      (hknown : tag ∈ Kind.knownTags) :
      Fares policy module args entry (.diagnostic
        (.ofEntry Catalog.wrongType [module, entry.1, tag, value.typeName, "function"]))
  | passed {tag : String} (he : entry.2.tag? = some (.string tag))
      (hcustom : tag ∉ Kind.knownTags) (hpolicy : policy = .passThrough) :
      Fares policy module args entry (.extension
        ⟨if entry.1 = "default" then module else module ++ "[" ++ entry.1 ++ "]", args,
          .ofTag tag, .uninterpreted entry.2, .empty⟩)
  | unsupported {tag : String} (he : entry.2.tag? = some (.string tag))
      (hcustom : tag ∉ Kind.knownTags) (hpolicy : policy = .reject) :
      Fares policy module args entry (.diagnostic
        (.ofEntry Catalog.kindUnsupported [module, entry.1, tag]))

/-- An export that is there and has a tag that is a string. -/
def isTagged (entry : String × Export κ) : Bool :=
  !entry.2.isEmpty && entry.2.kindTag?.isSome

section Fares

variable {policy : UnknownKindPolicy} {module : String} {args : Option Json}
  {entry : String × Export κ} {fate other : ExportFate κ}

theorem Fares.unique (h : Fares policy module args entry fate)
    (hother : Fares policy module args entry other) : other = fate := by
  obtain ⟨key, e⟩ := entry
  -- rules for different ways contradict each other about the tag, its kind or the policy
  cases h <;> cases hother <;> simp_all [Export.tag?]

/-- An export that is tagged becomes an extension or gets a diagnostic, and never both; any other
gets nothing. -/
theorem Fares.count (h : Fares policy module args entry fate) :
    fate.extension?.toList.length + fate.diagnostic?.toList.length =
      if isTagged entry then 1 else 0 := by
  obtain ⟨key, e⟩ := entry
  have htagged : ∀ tag, e.tag? = some (.string tag) → isTagged (key, e) = true := by
    intro tag he
    have hkind : e.kindTag? = some tag := (kindTag?_eq_some_iff e tag).mpr he
    cases e with
    | empty => cases he
    | constructible _ _ => simp [isTagged, Export.isEmpty, hkind]
    | data _ _ => simp [isTagged, Export.isEmpty, hkind]
  cases h with
  | silent he =>
    have hnone : e.kindTag? = none :=
      Option.eq_none_iff_forall_ne_some.mpr fun tag htag =>
        he tag ((kindTag?_eq_some_iff e tag).mp htag)
    simp [isTagged, hnone, ExportFate.extension?, ExportFate.diagnostic?]
  | walker he _ =>
    rw [if_pos (htagged _ (congrArg Export.tag? he))]
    rfl
  | mistyped he _ =>
    rw [if_pos (htagged _ (congrArg Export.tag? he))]
    rfl
  | passed he _ _ =>
    rw [if_pos (htagged _ he)]
    rfl
  | unsupported he _ _ =>
    rw [if_pos (htagged _ he)]
    rfl

end Fares

/-- The verdict on an export follows the rules. -/
theorem fares_judge (policy : UnknownKindPolicy) (module : String) (args : Option Json)
    (entry : String × Export κ) :
    Fares policy module args entry (judge policy module args entry).fate := by
  rcases hkind : entry.2.kindTag? with _ | tag
  · rw [judge, hkind]
    refine .silent fun tag htag => ?_
    rw [(kindTag?_eq_some_iff _ tag).mpr htag] at hkind
    cases hkind
  have htag := (kindTag?_eq_some_iff _ tag).mp hkind
  have hisKnown := Kind.isKnown_ofTag tag
  by_cases hknown : tag ∈ Kind.knownTags
  · have hkind' : (Kind.ofTag tag).isKnown = true := by simpa [hisKnown] using hknown
    obtain ⟨key, e⟩ := entry
    cases e with
    | empty => cases htag
    | constructible t k =>
      obtain rfl : t = some (.string tag) := htag
      simp only [judge, hkind, payload?, hkind', if_true, Export.constructor?, Option.map_some,
        Verdict.fate]
      exact .walker rfl hknown
    | data t v =>
      obtain rfl : t = some (.string tag) := htag
      simp only [judge, hkind, payload?, hkind', if_true, Export.constructor?, Option.map_none,
        Verdict.fate]
      exact .mistyped rfl hknown
  · have hkind' : (Kind.ofTag tag).isKnown = false := by simpa [hisKnown] using hknown
    cases policy with
    | passThrough =>
      simp only [judge, hkind, payload?, hkind', Verdict.fate]
      exact .passed htag hknown rfl
    | reject =>
      simp only [judge, hkind, payload?, hkind', Verdict.fate]
      exact .unsupported htag hknown rfl

/-! ### Modules -/

theorem foldl_note (vs : List (Verdict κ)) (c : Classified κ) :
    vs.foldl Classified.note c =
      ⟨c.accepted ++ vs.filterMap Verdict.descriptor?,
        c.diagnostics ++ (vs.filterMap Verdict.problem?).map Problem.diagnostic⟩ := by
  induction vs generalizing c with
  | nil => simp
  | cons v vs ih =>
    rw [List.foldl_cons, ih, Classified.note]
    simp [List.filterMap_eq_flatMap_toList, Option.toList_map]

/-- Classifying one export after the other comes to what is accepted of them all, and to the
complaints about them all behind the diagnostics that were there. -/
theorem classify_eq (policy : UnknownKindPolicy) (args : Option Json) (m : LoadedModule κ)
    (diagnostics : List Diagnostic) :
    classify policy args m diagnostics =
      ⟨accepted policy m.name args m.exports.entries, diagnostics ++ complaints policy m⟩ := by
  rw [classify, foldl_note, diagnostics_judgeModule, judgeModule, List.filterMap_map]
  rfl

theorem classifyAll_eq (policy : UnknownKindPolicy) (args? : String → Option Json)
    (modules : List (LoadedModule κ)) (diagnostics : List Diagnostic) :
    classifyAll policy args? modules diagnostics =
      ⟨modules.flatMap fun m => accepted policy m.name (args? m.name) m.exports.entries,
        diagnostics ++ modules.flatMap (complaints policy)⟩ := by
  have hfoldl : ∀ c : Classified κ, modules.foldl (fun c m =>
        let next := classify policy (args? m.name) m c.diagnostics
        ⟨c.accepted ++ next.accepted, next.diagnostics⟩) c =
      ⟨c.accepted ++
          modules.flatMap fun m => accepted policy m.name (args? m.name) m.exports.entries,
        c.diagnostics ++ modules.flatMap (complaints policy)⟩ := by
    induction modules with
    | nil => simp
    | cons m rest ih =>
      intro c
      rw [List.foldl_cons, ih, classify_eq]
      simp
  rw [classifyAll, hfoldl, List.nil_append]

end Admission

/-- An attempt that nothing interrupts has classified its modules one after the other, beginning
with the diagnostics of the names. -/
theorem Discovery.found_attempt {σ : Type} {setting : ExtensionSetting}
    {policy : UnknownKindPolicy} {h : Host κ σ} {s : σ}
    (hi : (attempt setting policy h s).1.phase.interruption = none) :
    let a := (attempt setting policy h s).1
    let c := Admission.classifyAll policy (fun name => setting.args? name) a.phase.modules
      (a.phase.problems.map Problem.diagnostic)
    a.found = ⟨.ofList c.accepted, c.diagnostics⟩ := by
  intro a c
  have haccepted : a.descriptors = c.accepted := by
    rw [descriptors_attempt hi, show c = _ from Admission.classifyAll_eq ..]
  have hdiagnostics : a.problems.map Problem.diagnostic = c.diagnostics := by
    rw [Attempt.problems, List.map_append, verdicts_attempt hi, Admission.diagnostics_judgeAll,
      show c = _ from Admission.classifyAll_eq ..]
  rw [Attempt.found, haccepted, hdiagnostics]

end LintDiscovery
