/-
Discovery under either policy.

The policy bears on exports of custom kinds and on nothing else. Passed through, such an export is a
descriptor; rejected, it is a diagnostic in the same place of the sequence. On a host that answers
alike whenever it is asked, two attempts under the two policies differ in just that.

* `Groups.restrict`, `restrict_ofList` — groups of some tags only;
* `CustomExport` — an export that the policy bears on, with the descriptor or the diagnostic that
  comes of it;
* `policies_compared` — an attempt under either policy.
-/
import LintDiscovery.Proofs.Steady

namespace LintDiscovery

variable {κ σ : Type}

/-! ### Groups of some tags -/

namespace Groups

/-- The groups whose tags satisfy a condition. -/
def restrict (g : Groups κ) (p : String → Bool) : Groups κ :=
  ⟨g.toList.filter fun x => p x.tag, g.ascending.filter _⟩

theorem insertInto_of_lt {d : Descriptor κ} {l : List (Group κ)}
    (hl : ∀ x ∈ l, d.kind.tag < x.tag) : insertInto d l = .single d :: l := by
  cases l with
  | nil => rfl
  | cons x rest =>
    have hx : d.kind.tag < x.tag := hl x (by simp)
    have hne : d.kind.tag ≠ x.tag := String.ne_of_lt hx
    rw [insertInto, dif_neg hne, if_pos hx]

/-- A descriptor whose tag is chosen comes into the chosen groups. -/
theorem filter_insertInto_of_pos {p : String → Bool} {d : Descriptor κ} (hd : p d.kind.tag = true)
    {l : List (Group κ)} (hl : l.Pairwise fun a b => a.tag < b.tag) :
    (insertInto d l).filter (fun x => p x.tag) = insertInto d (l.filter fun x => p x.tag) := by
  induction l with
  | nil => simp [insertInto, Group.single, hd]
  | cons x rest ih =>
    obtain ⟨hx, hrest⟩ := List.pairwise_cons.mp hl
    by_cases heq : d.kind.tag = x.tag
    · have hp : p x.tag = true := heq ▸ hd
      have hpush : p (x.push d heq).tag = true := hp
      rw [insertInto, dif_pos heq]
      simp only [List.filter_cons, hp, hpush, if_true]
      rw [insertInto, dif_pos heq]
    by_cases hlt : d.kind.tag < x.tag
    · -- a new group, in front of whatever is left
      have hall : ∀ y ∈ (x :: rest).filter (fun x => p x.tag), d.kind.tag < y.tag := by
        intro y hy
        rcases List.mem_cons.mp (List.mem_filter.mp hy).1 with rfl | hy
        · exact hlt
        · exact String.lt_trans hlt (hx y hy)
      have hsingle : p (Group.single d).tag = true := hd
      rw [insertInto_of_lt hall, insertInto, dif_neg heq, if_pos hlt, List.filter_cons,
        if_pos hsingle]
    · rw [insertInto, dif_neg heq, if_neg hlt]
      by_cases hp : p x.tag = true
      · simp only [List.filter_cons, hp, if_true, ih hrest]
        rw [insertInto, dif_neg heq, if_neg hlt]
      · simp only [List.filter_cons, hp, ih hrest]
        rfl

/-- A descriptor whose tag is not chosen leaves the chosen groups alone. -/
theorem filter_insertInto_of_neg {p : String → Bool} {d : Descriptor κ}
    (hd : p d.kind.tag = false) (l : List (Group κ)) :
    (insertInto d l).filter (fun x => p x.tag) = l.filter fun x => p x.tag := by
  have hsingle : p (Group.single d).tag = false := hd
  induction l with
  | nil => simp [insertInto, hsingle]
  | cons x rest ih =>
    rw [insertInto]
    split
    · rename_i heq
      have hp : p x.tag = false := heq ▸ hd
      have hpush : p (x.push d heq).tag = false := hp
      simp [hp, hpush]
    · split
      · simp [hsingle]
      · rw [List.filter_cons, List.filter_cons, ih]

theorem restrict_foldl_insert (p : String → Bool) (ds : List (Descriptor κ)) (g : Groups κ) :
    (ds.foldl insert g).restrict p =
      (ds.filter fun d => p d.kind.tag).foldl insert (g.restrict p) := by
  induction ds generalizing g with
  | nil => rfl
  | cons d rest ih =>
    rw [List.foldl_cons, ih]
    by_cases hd : p d.kind.tag = true
    · have hinsert : (g.insert d).restrict p = (g.restrict p).insert d := by
        simp only [insert, restrict, filter_insertInto_of_pos hd g.ascending]
      rw [List.filter_cons, if_pos hd, List.foldl_cons, hinsert]
    · have hinsert : (g.insert d).restrict p = g.restrict p := by
        simp only [insert, restrict, filter_insertInto_of_neg (Bool.not_eq_true _ ▸ hd) g.toList]
      rw [List.filter_cons, if_neg hd, hinsert]

/-- The groups of some tags are the groups of the descriptors that have them. -/
theorem restrict_ofList (p : String → Bool) (ds : List (Descriptor κ)) :
    (ofList ds).restrict p = ofList (ds.filter fun d => p d.kind.tag) :=
  restrict_foldl_insert p ds empty

end Groups

/-! ### Exports of custom kinds -/

/-- An export whose tag names a custom kind. -/
structure CustomExport (κ : Type) where
  module : String
  key : String
  tag : String
  content : Export κ

namespace CustomExport

/-- The export of a module, if its tag names a custom kind. -/
def ofExport? (module : String) (entry : String × Export κ) : Option (CustomExport κ) :=
  match entry.2.kindTag? with
  | none => none
  | some tag => if tag ∈ Kind.knownTags then none else some ⟨module, entry.1, tag, entry.2⟩

theorem of_ofExport?_eq_some {module : String} {entry : String × Export κ} {e : CustomExport κ}
    (he : ofExport? module entry = some e) :
    entry.2.kindTag? = some e.tag ∧ e.tag ∉ Kind.knownTags ∧
      e = ⟨module, entry.1, e.tag, entry.2⟩ := by
  unfold ofExport? at he
  split at he
  · cases he
  · rename_i tag htag
    split at he
    · cases he
    · rename_i hmem
      cases he
      exact ⟨htag, hmem, rfl⟩

theorem mem_of_ofExport?_eq_none {module : String} {entry : String × Export κ}
    (he : ofExport? module entry = none) :
    ∀ tag, entry.2.kindTag? = some tag → tag ∈ Kind.knownTags := by
  intro tag htag
  unfold ofExport? at he
  simp only [htag] at he
  split at he
  · assumption
  · cases he

/-- The exports of custom kinds, module after module, in the order of the tables. -/
def ofModules (modules : List (LoadedModule κ)) : List (CustomExport κ) :=
  modules.flatMap fun m => m.exports.entries.filterMap (ofExport? m.name)

/-- The descriptor of such an export when it is passed through. -/
def descriptor (args? : String → Option Json) (e : CustomExport κ) : Descriptor κ :=
  ⟨Descriptor.nameOf e.module e.key, args? e.module, .custom e.tag, .uninterpreted e.content, .empty⟩

/-- The diagnostic of such an export when it is rejected. -/
def diagnostic (e : CustomExport κ) : Diagnostic :=
  .ofEntry Catalog.kindUnsupported [e.module, e.key, e.tag]

end CustomExport

namespace Admission

theorem isKnown_of_mem {tag : String} (ht : tag ∈ Kind.knownTags) :
    (Kind.ofTag tag).isKnown = true := by
  rw [Kind.isKnown_ofTag]
  exact List.contains_iff_mem.mpr ht

theorem ofTag_of_not_mem {tag : String} (ht : tag ∉ Kind.knownTags) :
    Kind.ofTag tag = .custom tag := by
  simp only [Kind.knownTags, List.mem_cons, List.not_mem_nil, or_false, not_or] at ht
  rw [Kind.ofTag, if_neg ht.1, if_neg ht.2]

/-- What becomes of an export of a custom kind is up to the policy. -/
theorem judge_of_custom {tag : String} (ht : tag ∉ Kind.knownTags) {entry : String × Export κ}
    (htag : entry.2.kindTag? = some tag) (policy : UnknownKindPolicy) (module : String)
    (args : Option Json) :
    judge policy module args entry =
      match policy with
      | .passThrough => .accepted
        ⟨Descriptor.nameOf module entry.1, args, .custom tag, .uninterpreted entry.2, .empty⟩
      | .reject => .unsupported ⟨module, entry.1, tag⟩ := by
  have hkind := ofTag_of_not_mem ht
  cases policy with
  | passThrough => simp [judge, htag, hkind, payload?, Kind.isKnown]
  | reject => simp [judge, htag, hkind, payload?, Kind.isKnown]

/-- The policy has no say in any other export. -/
theorem judge_of_not_custom {entry : String × Export κ}
    (hk : ∀ tag, entry.2.kindTag? = some tag → tag ∈ Kind.knownTags) (policy : UnknownKindPolicy)
    (module : String) (args : Option Json) :
    judge policy module args entry = judge .passThrough module args entry := by
  rcases htag : entry.2.kindTag? with _ | tag
  · simp [judge, htag]
  · have hkind := isKnown_of_mem (hk tag htag)
    simp [judge, htag, payload?, hkind]

theorem code_of_judge_of_not_custom {entry : String × Export κ}
    (hk : ∀ tag, entry.2.kindTag? = some tag → tag ∈ Kind.knownTags) {policy : UnknownKindPolicy}
    {module : String} {args : Option Json} {p : Problem}
    (hp : (judge policy module args entry).problem? = some p) :
    p.diagnostic.code ≠ Catalog.kindUnsupported.code := by
  rcases htag : entry.2.kindTag? with _ | tag
  · simp [judge, htag, Verdict.problem?] at hp
  have hkind := isKnown_of_mem (hk tag htag)
  rcases hc : entry.2.constructor? with _ | k
  · have hcode : p.diagnostic.code = Catalog.wrongType.code := by
      simp only [judge, htag, payload?, hkind, hc, if_true, Option.map_none, Verdict.problem?,
        Option.some.injEq] at hp
      rw [← hp]
      rfl
    rw [hcode]
    decide
  · simp [judge, htag, payload?, hkind, hc, Verdict.problem?] at hp

/-! ### One export under either policy -/

theorem complaint?_passThrough (module : String) (entry : String × Export κ) :
    entry.2.complaint? .passThrough module entry.1 =
      (entry.2.complaint? .reject module entry.1).filter
        fun d => d.code ≠ Catalog.kindUnsupported.code := by
  rw [← diagnostic_judge .passThrough module none, ← diagnostic_judge .reject module none]
  rcases he : CustomExport.ofExport? module entry with _ | e
  · have hk := CustomExport.mem_of_ofExport?_eq_none he
    rw [judge_of_not_custom hk .reject]
    rcases hp : (judge .passThrough module none entry).problem? with _ | p
    · rfl
    · simp [Option.filter_some, code_of_judge_of_not_custom hk hp]
  · obtain ⟨htag, hmem, -⟩ := CustomExport.of_ofExport?_eq_some he
    simp only [judge_of_custom hmem htag, Verdict.problem?, Option.map_none, Option.map_some,
      Option.filter_some]
    rfl

theorem complaint?_reject_custom (module : String) (entry : String × Export κ) :
    (entry.2.complaint? .reject module entry.1).filter
        (fun d => d.code = Catalog.kindUnsupported.code) =
      (CustomExport.ofExport? module entry).map CustomExport.diagnostic := by
  rw [← diagnostic_judge .reject module none]
  rcases he : CustomExport.ofExport? module entry with _ | e
  · have hk := CustomExport.mem_of_ofExport?_eq_none he
    rcases hp : (judge .reject module none entry).problem? with _ | p
    · rfl
    · simp [Option.filter_some, code_of_judge_of_not_custom hk hp]
  · obtain ⟨htag, hmem, heq⟩ := CustomExport.of_ofExport?_eq_some he
    simp only [judge_of_custom hmem htag, Verdict.problem?, Option.map_some, Option.filter_some]
    rw [heq]
    rfl

theorem descriptor?_reject (module : String) (args : Option Json) (entry : String × Export κ) :
    (judge .reject module args entry).descriptor? =
      (judge .passThrough module args entry).descriptor?.filter
        fun d => d.kind.tag ∈ Kind.knownTags := by
  rcases he : CustomExport.ofExport? module entry with _ | e
  · have hk := CustomExport.mem_of_ofExport?_eq_none he
    rw [judge_of_not_custom hk .reject]
    rcases hd : (judge .passThrough module args entry).descriptor? with _ | d
    · rfl
    · have ht : d.kind.tag ∈ Kind.knownTags := hk _ (kindTag?_of_accepted hd)
      simp [Option.filter_some, ht]
  · obtain ⟨htag, hmem, -⟩ := CustomExport.of_ofExport?_eq_some he
    have ht : (Kind.custom e.tag).tag ∉ Kind.knownTags := hmem
    simp [judge_of_custom hmem htag, Verdict.descriptor?, Option.filter_some, ht]

theorem descriptor?_passThrough_custom (module : String) (args? : String → Option Json)
    (entry : String × Export κ) :
    (judge .passThrough module (args? module) entry).descriptor?.filter
        (fun d => d.kind.tag ∉ Kind.knownTags) =
      (CustomExport.ofExport? module entry).map (CustomExport.descriptor args?) := by
  rcases he : CustomExport.ofExport? module entry with _ | e
  · have hk := CustomExport.mem_of_ofExport?_eq_none he
    rcases hd : (judge .passThrough module (args? module) entry).descriptor? with _ | d
    · rfl
    · have ht : d.kind.tag ∈ Kind.knownTags := hk _ (kindTag?_of_accepted hd)
      simp [Option.filter_some, ht]
  · obtain ⟨htag, hmem, heq⟩ := CustomExport.of_ofExport?_eq_some he
    simp only [judge_of_custom hmem htag, Verdict.descriptor?, Kind.tag, hmem, Option.filter_some]
    rw [heq]
    rfl

/-! ### Modules under either policy -/

theorem complaints_passThrough (m : LoadedModule κ) :
    complaints .passThrough m =
      (complaints .reject m).filter fun d => d.code ≠ Catalog.kindUnsupported.code := by
  rw [complaints, complaints, List.filter_filterMap]
  congr 1
  funext entry
  exact complaint?_passThrough m.name entry

theorem complaints_reject_custom (m : LoadedModule κ) :
    (complaints .reject m).filter (fun d => d.code = Catalog.kindUnsupported.code) =
      (m.exports.entries.filterMap (CustomExport.ofExport? m.name)).map
        CustomExport.diagnostic := by
  rw [complaints, List.filter_filterMap, List.map_filterMap]
  congr 1
  funext entry
  exact complaint?_reject_custom m.name entry

theorem accepted_reject (module : String) (args : Option Json) (entries : List (String × Export κ)) :
    accepted .reject module args entries =
      (accepted .passThrough module args entries).filter
        fun d => d.kind.tag ∈ Kind.knownTags := by
  rw [accepted, accepted, List.filter_filterMap]
  congr 1
  funext entry
  exact descriptor?_reject module args entry

theorem accepted_passThrough_custom (module : String) (args? : String → Option Json)
    (entries : List (String × Export κ)) :
    (accepted .passThrough module (args? module) entries).filter
        (fun d => d.kind.tag ∉ Kind.knownTags) =
      (entries.filterMap (CustomExport.ofExport? module)).map (CustomExport.descriptor args?) := by
  rw [accepted, List.filter_filterMap, List.map_filterMap]
  congr 1
  funext entry
  exact descriptor?_passThrough_custom module args? entry

end Admission

/-! ### Attempts under either policy -/

theorem Answers.code_of_mem_diagnostics {a : Answers κ} {names : List String} {d : Diagnostic}
    (hd : d ∈ a.diagnostics names) : d.code ≠ Catalog.kindUnsupported.code := by
  obtain ⟨y, hy, hyd⟩ := List.mem_filterMap.mp hd
  obtain ⟨name, -, rfl⟩ := List.mem_map.mp hy
  unfold Answers.yield at hyd
  split at hyd
  · cases hyd
    simp [Diagnostic.ofEntry, Catalog.notFound, Catalog.kindUnsupported]
  · split at hyd
    · split at hyd
      · cases hyd
        simp [Diagnostic.ofEntry, Catalog.loadFailed, Catalog.kindUnsupported]
      · cases hyd
        simp [Diagnostic.ofEntry, Catalog.loadFailed, Catalog.kindUnsupported]
      · cases hyd
    · cases hyd
      simp [Diagnostic.ofEntry, Catalog.loadingNotImplemented, Catalog.kindUnsupported]

namespace Discovery

theorem acceptedOf_reject (a : Answers κ) (setting : ExtensionSetting) :
    acceptedOf a setting .reject =
      (acceptedOf a setting .passThrough).filter fun d => d.kind.tag ∈ Kind.knownTags := by
  rw [acceptedOf, acceptedOf, List.filter_flatMap]
  congr 1
  funext m
  exact Admission.accepted_reject m.name (setting.args? m.name) m.exports.entries

theorem acceptedOf_passThrough_custom (a : Answers κ) (setting : ExtensionSetting) :
    (acceptedOf a setting .passThrough).filter (fun d => d.kind.tag ∉ Kind.knownTags) =
      (CustomExport.ofModules (a.modules setting.names)).map
        (CustomExport.descriptor fun name => setting.args? name) := by
  rw [acceptedOf, CustomExport.ofModules, List.filter_flatMap, List.map_flatMap]
  congr 1
  funext m
  exact Admission.accepted_passThrough_custom m.name (fun name => setting.args? name)
    m.exports.entries

/-- **The policies compared.** On a host that answers alike whenever it is asked, attempts under
either policy return. The groups under rejection are those of known tags under passing through. The
diagnostics under passing through are those under rejection without the ones that name an
unsupported kind; and these, one by one and in their order, are for the same exports as the
descriptors of custom kinds that are passed through. -/
theorem policies_compared {h : Host κ σ} {a : Answers κ} (hh : h.Gives a)
    (setting : ExtensionSetting) (s t : σ) :
    let p := (attempt setting .passThrough h s).1
    let r := (attempt setting .reject h t).1
    let customs := CustomExport.ofModules p.phase.modules
    ∃ d e, p.result = .ok d ∧ r.result = .ok e ∧
      e.groups.toList = d.groups.toList.filter (fun g => g.tag ∈ Kind.knownTags) ∧
      d.diagnostics = e.diagnostics.filter (fun x => x.code ≠ Catalog.kindUnsupported.code) ∧
      e.diagnostics.filter (fun x => x.code = Catalog.kindUnsupported.code) =
        customs.map CustomExport.diagnostic ∧
      d.groups.Holds p.descriptors ∧
      p.descriptors.filter (fun x => x.kind.tag ∉ Kind.knownTags) =
        customs.map (CustomExport.descriptor fun name => setting.args? name) := by
  intro p r customs
  have hp : FollowsAnswers a setting .passThrough p := attempt_of_gives hh setting .passThrough s
  have hr : FollowsAnswers a setting .reject r := attempt_of_gives hh setting .reject t
  have hcustoms : customs = CustomExport.ofModules (a.modules setting.names) :=
    congrArg CustomExport.ofModules hp.modules
  -- what names yield is never about a kind
  have hkeep : (a.diagnostics setting.names).filter
      (fun x => x.code ≠ Catalog.kindUnsupported.code) = a.diagnostics setting.names :=
    List.filter_eq_self.mpr fun x hx => by simpa using Answers.code_of_mem_diagnostics hx
  have hdrop : (a.diagnostics setting.names).filter
      (fun x => x.code = Catalog.kindUnsupported.code) = [] :=
    List.filter_eq_nil_iff.mpr fun x hx => by simpa using Answers.code_of_mem_diagnostics hx
  refine ⟨_, _, hp.result, hr.result, ?_, ?_, ?_, Groups.holds_ofList p.descriptors, ?_⟩
  · rw [hr.groups, acceptedOf_reject, hp.groups]
    exact congrArg Groups.toList
      (Groups.restrict_ofList (fun tag => decide (tag ∈ Kind.knownTags)) _).symm
  · rw [Attempt.diagnostics_found, Attempt.diagnostics_found, hp.nameDiagnostics,
      hp.exportDiagnostics, hr.nameDiagnostics, hr.exportDiagnostics, List.filter_append, hkeep,
      List.filter_flatMap]
    exact congrArg (fun f => a.diagnostics setting.names ++ (a.modules setting.names).flatMap f)
      (funext Admission.complaints_passThrough)
  · rw [Attempt.diagnostics_found, hr.nameDiagnostics, hr.exportDiagnostics, List.filter_append,
      hdrop, List.nil_append, List.filter_flatMap, hcustoms, CustomExport.ofModules,
      List.map_flatMap]
    exact congrArg (fun f => (a.modules setting.names).flatMap f)
      (funext Admission.complaints_reject_custom)
  · rw [hp.descriptors, acceptedOf_passThrough_custom, hcustoms]

/-- A table with exports of known and of custom kinds in turn. -/
theorem policies_compared_mixedTable :
    mixedTable.host.Gives mixedTable.answers ∧
      ∃ d e, (attempt (.list ["lint", "ghost", "lint"]) .passThrough mixedTable.host 0).1.result =
          .ok d ∧
        (attempt (.list ["lint", "ghost", "lint"]) .reject mixedTable.host 0).1.result = .ok e ∧
        e.groups.toList = d.groups.toList.filter (fun g => g.tag ∈ Kind.knownTags) ∧
        d.diagnostics.length = 3 ∧
        e.diagnostics.filter (fun x => x.code = Catalog.kindUnsupported.code) =
          [.ofEntry Catalog.kindUnsupported ["lint", "style", "formatter"],
            .ofEntry Catalog.kindUnsupported ["lint", "style", "formatter"]] := by
  have hh : mixedTable.host.Gives mixedTable.answers :=
    HostTable.gives (by decide) fun p hp => by cases hp
  obtain ⟨d, e, hd, he, hgroups, -, hcustoms, -, -⟩ :=
    policies_compared hh (.list ["lint", "ghost", "lint"]) 0 0
  refine ⟨hh, d, e, hd, he, hgroups, ?_, hcustoms⟩
  cases hd
  rfl

end Discovery

end LintDiscovery
