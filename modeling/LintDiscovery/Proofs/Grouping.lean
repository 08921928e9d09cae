/-
Grouping loses nothing.

The groups of an attempt hold what its modules brought in, each descriptor once, under the tag that
its export carries, and in the order of the modules and their tables.

* `Groups.Holds`, `holds_ofList` — groups that hold exactly a sequence;
* `filter_accepted` — the descriptors of a tag come from the exports of that tag;
* `groups_of_attempt` — the groups of an attempt.
-/
import LintDiscovery.Discovery.Basic
import LintDiscovery.Host.Table
import LintDiscovery.Proofs.ByteOrder

namespace LintDiscovery

variable {κ σ : Type}

/-! ### Groups of a sequence -/

namespace Groups

theorem membersOf_of_mem {l : List (Group κ)} (hl : l.Pairwise fun a b => a.tag < b.tag)
    {g : Group κ} (hg : g ∈ l) : membersOf g.tag l = g.members := by
  induction l with
  | nil => cases hg
  | cons x rest ih =>
    obtain ⟨hx, hrest⟩ := List.pairwise_cons.mp hl
    rcases List.mem_cons.mp hg with rfl | hg
    · rw [membersOf, if_pos rfl]
    · have hne : x.tag ≠ g.tag := String.ne_of_lt (hx g hg)
      rw [membersOf, if_neg hne, ih hrest hg]

theorem exists_of_mem_membersOf {l : List (Group κ)} {tag : String} {x : Descriptor κ}
    (hx : x ∈ membersOf tag l) : ∃ g ∈ l, g.tag = tag := by
  induction l with
  | nil => cases hx
  | cons g rest ih =>
    rw [membersOf] at hx
    split at hx
    · rename_i htag
      exact ⟨g, by simp, htag⟩
    · obtain ⟨g', hg', htag⟩ := ih hx
      exact ⟨g', by simp [hg'], htag⟩

/-- A group is the part of the sequence that has its tag. -/
theorem members_eq_filter_of_mem {ds : List (Descriptor κ)} {g : Group κ}
    (hg : g ∈ (ofList ds).toList) : g.members = ds.filter (fun x => x.kind.tag = g.tag) := by
  rw [← withTag_ofList, withTag, membersOf_of_mem (ofList ds).ascending hg]

/-- There is a group for each tag that occurs. -/
theorem exists_tag_iff (ds : List (Descriptor κ)) (tag : String) :
    tag ∈ (ofList ds).toList.map Group.tag ↔ ∃ x ∈ ds, x.kind.tag = tag := by
  rw [List.mem_map]
  constructor
  · rintro ⟨g, hg, rfl⟩
    obtain ⟨x, hx⟩ := List.exists_mem_of_ne_nil _ g.members_ne_nil
    have hmem := hx
    rw [members_eq_filter_of_mem hg, List.mem_filter] at hmem
    exact ⟨x, hmem.1, g.tag_of_mem x hx⟩
  · rintro ⟨x, hx, rfl⟩
    have hmem : x ∈ (ofList ds).withTag x.kind.tag := by
      rw [withTag_ofList]
      exact List.mem_filter.mpr ⟨hx, by simp⟩
    exact exists_of_mem_membersOf hmem

theorem perm_flatMap_insertInto (d : Descriptor κ) (l : List (Group κ)) :
    ((insertInto d l).flatMap Group.members).Perm (l.flatMap Group.members ++ [d]) := by
  induction l with
  | nil => exact .refl _
  | cons g rest ih =>
    rw [insertInto]
    -- the descriptor ends up in this group, in a new one before it, or further on
    split
    · simp only [List.flatMap_cons, Group.push, List.append_assoc]
      exact List.perm_append_comm.append_left g.members
    · split
      · rw [List.flatMap_cons]
        exact List.perm_append_comm
      · simp only [List.flatMap_cons, List.append_assoc]
        exact ih.append_left g.members

theorem perm_descriptors_foldl (ds : List (Descriptor κ)) (g : Groups κ) :
    (ds.foldl insert g).descriptors.Perm (g.descriptors ++ ds) := by
  induction ds generalizing g with
  | nil => simp
  | cons d rest ih =>
    have hinsert : (g.insert d).descriptors.Perm (g.descriptors ++ [d]) :=
      perm_flatMap_insertInto d g.toList
    refine (ih (g.insert d)).trans ?_
    simpa using hinsert.append_right rest

/-- All groups together hold the sequence, each descriptor as often as it has it. -/
theorem perm_descriptors_ofList (ds : List (Descriptor κ)) : (ofList ds).descriptors.Perm ds :=
  perm_descriptors_foldl ds empty

/-- Groups hold exactly a sequence: they are in the order of the bytes of their tags, there is one
for each tag that occurs and none besides, each is not empty and keeps the order of the sequence,
and no descriptor is lost or gained. -/
structure Holds (g : Groups κ) (ds : List (Descriptor κ)) : Prop where
  ascending : (g.toList.map Group.tag).Pairwise fun a b => Text.bytes a < Text.bytes b
  tags (tag : String) : tag ∈ g.toList.map Group.tag ↔ ∃ x ∈ ds, x.kind.tag = tag
  nonempty : ∀ x ∈ g.toList, x.members ≠ []
  members : ∀ x ∈ g.toList, x.members = ds.filter (fun d => d.kind.tag = x.tag)
  perm : g.descriptors.Perm ds

theorem holds_ofList (ds : List (Descriptor κ)) : (ofList ds).Holds ds where
  ascending := List.pairwise_map.mpr ((ofList ds).ascending.imp Text.bytes_lt_bytes)
  tags := exists_tag_iff ds
  nonempty x _ := x.members_ne_nil
  members _ := members_eq_filter_of_mem
  perm := perm_descriptors_ofList ds

/-- The descriptors of the kind that a tag names. Custom kinds are no exception, since no two tags
name the same kind. -/
theorem ofKind_ofTag_ofList (ds : List (Descriptor κ)) (tag : String) :
    (ofList ds).ofKind (Kind.ofTag tag) = ds.filter (fun d => d.kind.tag = tag) := by
  rw [ofKind, Kind.tag_ofTag, withTag_ofList]

end Groups

/-! ### Descriptors and their exports -/

namespace Admission

/-- What is accepted of some exports of a module, in their order. -/
def accepted (policy : UnknownKindPolicy) (module : String) (args : Option Json)
    (entries : List (String × Export κ)) : List (Descriptor κ) :=
  entries.filterMap fun entry => (judge policy module args entry).descriptor?

/-- A descriptor has the tag of its export. -/
theorem kindTag?_of_accepted {policy : UnknownKindPolicy} {module : String} {args : Option Json}
    {entry : String × Export κ} {d : Descriptor κ}
    (hd : (judge policy module args entry).descriptor? = some d) :
    entry.2.kindTag? = some d.kind.tag := by
  rcases htag : entry.2.kindTag? with _ | tag
  · simp [judge, htag, Verdict.descriptor?] at hd
  rcases hp : payload? policy (Kind.ofTag tag) entry.2 with _ | payload
  · simp only [judge, htag, hp] at hd
    split at hd <;> cases hd
  · simp only [judge, htag, hp, Verdict.descriptor?, Option.some.injEq] at hd
    rw [← hd, Kind.tag_ofTag]

/-- Choosing descriptors by their tag comes to choosing exports by theirs. -/
theorem filter_accepted (policy : UnknownKindPolicy) (module : String) (args : Option Json)
    (entries : List (String × Export κ)) (tag : String) :
    (accepted policy module args entries).filter (fun d => d.kind.tag = tag) =
      accepted policy module args (entries.filter fun entry => entry.2.kindTag? = some tag) := by
  rw [accepted, accepted, List.filter_filterMap, List.filterMap_filter]
  congr 1
  funext entry
  rcases hd : (judge policy module args entry).descriptor? with _ | d
  · simp
  · have htag := kindTag?_of_accepted hd
    by_cases h : d.kind.tag = tag
    · simp [htag, h]
    · simp [htag, h]

theorem descriptors_judgeAll (policy : UnknownKindPolicy) (args? : String → Option Json)
    (modules : List (LoadedModule κ)) :
    (judgeAll policy args? modules).filterMap Verdict.descriptor? =
      modules.flatMap fun m => accepted policy m.name (args? m.name) m.exports.entries := by
  rw [judgeAll, List.filterMap_flatMap]
  congr 1
  funext m
  rw [judgeModule, List.filterMap_map]
  rfl

end Admission

/-! ### The groups of an attempt -/

/-- The descriptors of an attempt that nothing interrupted, module after module. -/
theorem Discovery.descriptors_attempt {setting : ExtensionSetting} {policy : UnknownKindPolicy}
    {h : Host κ σ} {s : σ} (hi : (attempt setting policy h s).1.phase.interruption = none) :
    (attempt setting policy h s).1.descriptors =
      (attempt setting policy h s).1.phase.modules.flatMap fun m =>
        Admission.accepted policy m.name (setting.args? m.name) m.exports.entries := by
  rw [Attempt.descriptors, verdicts_attempt hi, Admission.descriptors_judgeAll]

/-- **Grouping loses nothing.** When an attempt returns, its groups hold exactly what was accepted
of the modules, module after module. Asked for the kind that a text names, they give what was
accepted of the exports that are tagged with this text, in the order of the modules and their
tables; what they give for two texts has nothing in common, and every accepted descriptor is given
for some text. -/
theorem Discovery.groups_of_attempt {setting : ExtensionSetting} {policy : UnknownKindPolicy}
    {h : Host κ σ} {s : σ} {d : Discovery κ}
    (hd : (attempt setting policy h s).1.result = .ok d) :
    let modules := (attempt setting policy h s).1.phase.modules
    let all := modules.flatMap fun m =>
      Admission.accepted policy m.name (setting.args? m.name) m.exports.entries
    d.groups.Holds all ∧
      (∀ text, d.groups.ofKind (Kind.ofTag text) = all.filter fun x => x.kind.tag = text) ∧
      (∀ text, d.groups.ofKind (Kind.ofTag text) = modules.flatMap fun m =>
        Admission.accepted policy m.name (setting.args? m.name)
          (m.exports.entries.filter fun entry => entry.2.kindTag? = some text)) ∧
      (∀ text text', text ≠ text' → ∀ x ∈ d.groups.ofKind (Kind.ofTag text),
        x ∉ d.groups.ofKind (Kind.ofTag text')) ∧
      ∀ x ∈ all, ∃ text, x ∈ d.groups.ofKind (Kind.ofTag text) := by
  intro modules all
  obtain ⟨hi, rfl⟩ := Attempt.result_eq_ok_iff.mp hd
  have hgroups : (attempt setting policy h s).1.found.groups = .ofList all := by
    show Groups.ofList ((attempt setting policy h s).1.verdicts.filterMap _) = _
    rw [verdicts_attempt hi, Admission.descriptors_judgeAll]
  have hkind : ∀ text, (Groups.ofList all).ofKind (Kind.ofTag text) =
      all.filter fun x => x.kind.tag = text := Groups.ofKind_ofTag_ofList all
  rw [hgroups]
  refine ⟨Groups.holds_ofList all, hkind, ?_, ?_, ?_⟩
  · intro text
    -- the modules stay in place, so each can be looked at on its own
    rw [hkind, List.filter_flatMap]
    congr 1
    funext m
    exact Admission.filter_accepted policy m.name _ m.exports.entries text
  · intro text text' hne x hx hx'
    rw [hkind, List.mem_filter, decide_eq_true_iff] at hx hx'
    exact hne (hx.2.symm.trans hx'.2)
  · intro x hx
    refine ⟨x.kind.tag, ?_⟩
    rw [hkind]
    exact List.mem_filter.mpr ⟨hx, by simp⟩

/-- Two modules whose kinds take turns; some of their tags differ in blanks or in letter case. -/
def motleyTable : HostTable Unit where
  modules := [
    ⟨"first", ⟨"/ext/first"⟩, none, none, .exports ⟨[
      ("a", .constructible (some (.string "syntactic-lint")) ()),
      ("b", .data (some (.string " syntactic-lint")) .null),
      ("c", .data (some (.string "")) .null),
      ("d", .constructible (some (.string "semantic-lint")) ())]⟩⟩,
    ⟨"second", ⟨"/ext/second"⟩, none, none, .exports ⟨[
      ("a", .data (some (.string "Syntactic-Lint")) .null),
      ("b", .constructible (some (.string "syntactic-lint")) ()),
      ("c", .data (some (.string "")) .null)]⟩⟩]
  directory := none
  loader := .present

theorem groups_of_motleyTable :
    ∃ d, (Discovery.attempt (.list ["first", "second"]) .passThrough motleyTable.host 0).1.result =
        .ok d ∧
      d.groups.Holds
        ((Discovery.attempt (.list ["first", "second"]) .passThrough motleyTable.host
          0).1.phase.modules.flatMap fun m =>
            Admission.accepted .passThrough m.name none m.exports.entries) ∧
      (d.groups.ofKind (Kind.ofTag "syntactic-lint")).map Descriptor.name =
        ["first[a]", "second[b]"] := by
  have hd : (Discovery.attempt (.list ["first", "second"]) .passThrough motleyTable.host
      0).1.result = .ok _ := rfl
  obtain ⟨hholds, -, hexports, -⟩ := Discovery.groups_of_attempt hd
  refine ⟨_, hd, hholds, ?_⟩
  rw [hexports]
  rfl

example :
    (Discovery.attempt (.list ["first", "second"]) .passThrough motleyTable.host
      0).1.found.groups.toList.map Group.tag =
        ["", " syntactic-lint", "Syntactic-Lint", "semantic-lint", "syntactic-lint"] := by
  decide

end LintDiscovery
