/-
A module among others.

Discovery handles a module by itself: what it accepts of the exports and what it says against them
stands in one piece, whatever else is configured. `Host.Loads` says that a host leads one of some
names to an export table, and that none of them keeps discovery from returning; `Attempt.Admits`
says what an attempt makes of the module of this name, and `exists_admits` leads from the one to the
other.

* `Host.Gives.loads` — hosts that answer alike whenever they are asked;
* `exists_apart` — a module whose name is there once;
* `Attempt.Admits.alone` — a module without others.
-/
import LintDiscovery.Proofs.Steady

namespace LintDiscovery

variable {κ σ : Type}

/-! ### Loading it -/

/-- A host loads an export table for one of some names, and settles all of them. -/
def Host.Loads (h : Host κ σ) (s : σ) (names : List String) (name : String)
    (table : ExportTable κ) : Prop :=
  ∃ directory s₀ yields s' path, h.directory s = (.ok directory, s₀) ∧
    InTurn (Settles h (containingFile directory)) names s₀ yields s' ∧
    .module ⟨name, path, table⟩ ∈ yields

/-- A host that answers alike whenever it is asked loads what its answers say. -/
theorem Host.Gives.loads {h : Host κ σ} {a : Answers κ} (hh : h.Gives a) {names : List String}
    {name : String} (hname : name ∈ names) {path : Path} {table : ExportTable κ}
    (hyield : a.yield name = .module ⟨name, path, table⟩) (s : σ) :
    h.Loads s names name table := by
  obtain ⟨hi, hyields⟩ := LoadPhase.yields_run hh names s
  obtain ⟨directory, s₀, hd, hall⟩ := LoadPhase.inTurn_of_run hi
  rw [hyields] at hall
  exact ⟨directory, s₀, _, _, path, hd, hall, List.mem_map.mpr ⟨name, hname, hyield⟩⟩

/-- Modules come in the order of the names that yield them. -/
theorem InTurn.sublist_names {h : Host κ σ} {file : Path} {names : List String} {s s' : σ}
    {ys : List (Yield κ)} (hys : InTurn (Settles h file) names s ys s') :
    ((ys.filterMap Yield.module?).map LoadedModule.name).Sublist names := by
  induction hys with
  | nil => exact .slnil
  | cons hy _ ih =>
    cases hy with
    | loaded _ _ _ _ => exact ih.cons_cons _
    | _ => exact ih.cons _

/-- A module whose name is there once is alone with it. -/
theorem exists_apart {modules : List (LoadedModule κ)} {names : List String}
    (hsub : (modules.map LoadedModule.name).Sublist names) {m : LoadedModule κ} (hm : m ∈ modules)
    (hone : names.count m.name = 1) :
    ∃ front back, modules = front ++ m :: back ∧ ∀ x ∈ front ++ back, x.name ≠ m.name := by
  obtain ⟨front, back, rfl⟩ := List.append_of_mem hm
  have hcount := hsub.count_le m.name
  rw [hone, List.map_append, List.map_cons, List.count_append, List.count_cons_self] at hcount
  refine ⟨front, back, rfl, fun x hx heq => ?_⟩
  have hmem : m.name ∈ (front ++ back).map LoadedModule.name :=
    heq ▸ List.mem_map_of_mem hx
  have hpos := List.count_pos_iff.mpr hmem
  rw [List.map_append, List.count_append] at hpos
  omega

/-! ### What discovery makes of it -/

/-- What groups hold is found under its kind. -/
theorem Groups.mem_ofKind {g : Groups κ} {x : Descriptor κ} (hx : x ∈ g.descriptors) :
    x ∈ g.ofKind x.kind := by
  obtain ⟨group, hgroup, hmember⟩ := List.mem_flatMap.mp hx
  rw [ofKind, withTag, group.tag_of_mem x hmember, membersOf_of_mem g.ascending hgroup]
  exact hmember

/-- What a setting accepts of modules. -/
def Discovery.acceptedFrom (setting : ExtensionSetting) (policy : UnknownKindPolicy)
    (modules : List (LoadedModule κ)) : List (Descriptor κ) :=
  modules.flatMap fun m =>
    Admission.accepted policy m.name (setting.args? m.name) m.exports.entries

/-- An attempt has made certain descriptors of the module of a name, and has certain complaints
about it. They stand between those of the modules before it and behind it, which have other names;
and every name but this one has led to another module or to a diagnostic of its own. -/
structure Attempt.Admits (a : Attempt κ) (setting : ExtensionSetting) (policy : UnknownKindPolicy)
    (front : List (LoadedModule κ)) (m : LoadedModule κ) (back : List (LoadedModule κ))
    (own : List (Descriptor κ)) (complaints : List Diagnostic) (d : Discovery κ) : Prop where
  result : a.result = .ok d
  modules : a.phase.modules = front ++ m :: back
  apart : ∀ x ∈ front ++ back, x.name ≠ m.name
  size : front.length + back.length + a.nameDiagnostics.length + 1 = setting.size
  groups : d.groups.Holds (Discovery.acceptedFrom setting policy front ++
    (own ++ Discovery.acceptedFrom setting policy back))
  diagnostics : d.diagnostics = a.nameDiagnostics ++
    (front.flatMap (Admission.complaints policy) ++
      (complaints ++ back.flatMap (Admission.complaints policy)))

namespace Attempt.Admits

variable {a : Attempt κ} {setting : ExtensionSetting} {policy : UnknownKindPolicy}
  {front back : List (LoadedModule κ)} {m : LoadedModule κ} {own : List (Descriptor κ)}
  {complaints : List Diagnostic} {d : Discovery κ}

/-- Where there is but one name, there is nothing else. -/
theorem alone (h : a.Admits setting policy front m back own complaints d)
    (hsize : setting.size = 1) : d.groups.Holds own ∧ d.diagnostics = complaints := by
  have hlength := h.size
  have hholds := h.groups
  have hdiagnostics := h.diagnostics
  obtain rfl : front = [] := List.eq_nil_of_length_eq_zero (by omega)
  obtain rfl : back = [] := List.eq_nil_of_length_eq_zero (by omega)
  have hnone : a.nameDiagnostics = [] := List.eq_nil_of_length_eq_zero (by omega)
  simp only [Discovery.acceptedFrom, hnone, List.flatMap_nil, List.nil_append,
    List.append_nil] at hholds hdiagnostics
  exact ⟨hholds, hdiagnostics⟩

/-- What is made of the module is found under its kind. -/
theorem mem_ofKind (h : a.Admits setting policy front m back own complaints d)
    {x : Descriptor κ} (hx : x ∈ own) : x ∈ d.groups.ofKind x.kind := by
  refine Groups.mem_ofKind (h.groups.perm.mem_iff.mpr ?_)
  exact List.mem_append_right _ (List.mem_append_left _ hx)

end Attempt.Admits

/-- An attempt on a host that loads a table for a name returns, and makes of the table what is
accepted of it and what there is to be said against it, whatever the other names lead to. -/
theorem Discovery.exists_admits {h : Host κ σ} {s : σ} {setting : ExtensionSetting} {name : String}
    {table : ExportTable κ} (hone : setting.names.count name = 1)
    (hload : h.Loads s setting.names name table) (policy : UnknownKindPolicy) :
    ∃ front path back d, (attempt setting policy h s).1.Admits setting policy front
      ⟨name, path, table⟩ back
      (Admission.accepted policy name (setting.args? name) table.entries)
      (table.entries.filterMap fun entry => entry.2.complaint? policy name entry.1) d := by
  obtain ⟨directory, s₀, yields, s', path, hd, hall, hmem⟩ := hload
  obtain ⟨hi, hyields⟩ := LoadPhase.run_of_inTurn hd hall
  have hmodules : (attempt setting policy h s).1.phase.modules =
      yields.filterMap Yield.module? := by
    rw [← hyields, LoadPhase.filterMap_module?_yields]
    rfl
  have hnames : (attempt setting policy h s).1.nameDiagnostics =
      yields.filterMap Yield.diagnostic? := by
    rw [← hyields, LoadPhase.filterMap_diagnostic?_yields]
    rfl
  have hmodule : (⟨name, path, table⟩ : LoadedModule κ) ∈ yields.filterMap Yield.module? :=
    List.mem_filterMap.mpr ⟨_, hmem, rfl⟩
  obtain ⟨front, back, hsplit, hapart⟩ := exists_apart hall.sublist_names hmodule hone
  refine ⟨front, path, back, _, Attempt.result_eq_ok_iff.mpr ⟨hi, rfl⟩, hmodules.trans hsplit,
    hapart, ?_, ?_, ?_⟩
  · -- as many names as modules and diagnostics
    have hcount := Yield.length_modules_add_length_diagnostics yields
    rw [hsplit, hall.length_eq, List.length_append, List.length_cons] at hcount
    rw [hnames, ExtensionSetting.size]
    omega
  · have hholds : (attempt setting policy h s).1.found.groups.Holds _ :=
      Groups.holds_ofList (attempt setting policy h s).1.descriptors
    rw [descriptors_attempt hi, hmodules, hsplit, List.flatMap_append, List.flatMap_cons] at hholds
    exact hholds
  · have hyields' : (attempt setting policy h s).1.phase.yields = yields := hyields
    have hdiagnostics : (attempt setting policy h s).1.found.diagnostics = _ :=
      diagnostics_attempt hi
    rw [hyields', ← hnames, hmodules, hsplit, List.flatMap_append,
      List.flatMap_cons] at hdiagnostics
    exact hdiagnostics

end LintDiscovery
