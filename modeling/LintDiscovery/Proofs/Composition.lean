/-
Discovery in parts.

A setting can be parted into its first names and its last names. On a host that answers alike
whenever it is asked, what is discovered under the whole setting follows from what is discovered
under the parts: groups are appended tag by tag, while the diagnostics of names stay in front of
those of exports. A name that yields no module, put in anywhere, adds its own diagnostic and changes
nothing else.

* `ExtensionSetting.Parts` — a setting and its parts;
* `attempt_of_parts` — discovery under the whole from discovery under the parts;
* `Answers.Fails` — names that yield no module.
-/
import LintDiscovery.Proofs.Steady
import Mathlib.Data.List.Basic

namespace LintDiscovery

/-! ### Settings in parts -/

/-- A setting parted into its first names and its last names. The parts of a map share no name. -/
inductive ExtensionSetting.Parts : ExtensionSetting → ExtensionSetting → ExtensionSetting → Prop
  | list (front back : List String) : Parts (.list (front ++ back)) (.list front) (.list back)
  | map {front back : List (String × Json)} (hne : ∀ x ∈ front, ∀ y ∈ back, x.1 ≠ y.1) :
      Parts (.map (front ++ back)) (.map front) (.map back)

theorem Json.find?_append (key : String) (front back : List (String × Json)) :
    find? key (front ++ back) = (find? key front).or (find? key back) := by
  induction front with
  | nil => rfl
  | cons f rest ih =>
    rw [List.cons_append, find?, find?]
    split
    · rfl
    · exact ih

theorem Json.find?_eq_none {key : String} {fields : List (String × Json)}
    (hne : ∀ x ∈ fields, x.1 ≠ key) : find? key fields = none := by
  rw [← Option.not_isSome_iff_eq_none, isSome_find?_iff]
  intro hkey
  obtain ⟨x, hx, heq⟩ := List.mem_map.mp hkey
  exact hne x hx heq

namespace ExtensionSetting.Parts

variable {whole front back : ExtensionSetting}

theorem names_eq (hw : whole.Parts front back) : whole.names = front.names ++ back.names := by
  cases hw with
  | list front back => rfl
  | map _ => exact List.map_append

/-- A name of the first part has its argument there. -/
theorem args?_of_mem_front (hw : whole.Parts front back) {name : String}
    (hname : name ∈ front.names) : whole.args? name = front.args? name := by
  cases hw with
  | list front back => rfl
  | @map front back hne =>
    obtain ⟨x, hx, rfl⟩ := List.mem_map.mp hname
    have hback : Json.find? x.1 back = none :=
      Json.find?_eq_none fun y hy => (hne x hx y hy).symm
    show Json.find? x.1 (front ++ back) = Json.find? x.1 front
    rw [Json.find?_append, hback, Option.or_none]

/-- A name of the last part has its argument there. -/
theorem args?_of_mem_back (hw : whole.Parts front back) {name : String}
    (hname : name ∈ back.names) : whole.args? name = back.args? name := by
  cases hw with
  | list front back => rfl
  | @map front back hne =>
    obtain ⟨y, hy, rfl⟩ := List.mem_map.mp hname
    have hfront : Json.find? y.1 front = none :=
      Json.find?_eq_none fun x hx => hne x hx y hy
    show Json.find? y.1 (front ++ back) = Json.find? y.1 back
    rw [Json.find?_append, hfront, Option.none_or]

end ExtensionSetting.Parts

/-! ### Names that fail -/

namespace Answers

variable {κ : Type}

/-- A name fails when it does not lead to exports: it is not resolved, or there is no loader, or the
loader fails or panics at its path. -/
def Fails (a : Answers κ) (name : String) : Prop :=
  ∀ path, a.resolve name = .ok path → a.hasLoader = true →
    ∀ exports, a.load path ≠ .ok (.ok exports)

/-- A name that fails yields a diagnostic. -/
theorem exists_yield_of_fails {a : Answers κ} {name : String} (hf : a.Fails name) :
    ∃ failure, a.yield name = .diagnostic failure := by
  unfold yield
  split
  · exact ⟨_, rfl⟩
  · rename_i path hpath
    split
    · rename_i hl
      split
      · exact ⟨_, rfl⟩
      · exact ⟨_, rfl⟩
      · rename_i exports hload
        exact absurd hload (hf path hpath hl exports)
    · exact ⟨_, rfl⟩

theorem modules_cons_of_failure {a : Answers κ} {name : String} {failure : Diagnostic}
    (hf : a.yield name = .diagnostic failure) (rest : List String) :
    a.modules (name :: rest) = a.modules rest := by
  rw [modules, List.map_cons, hf]
  rfl

theorem diagnostics_cons_of_failure {a : Answers κ} {name : String} {failure : Diagnostic}
    (hf : a.yield name = .diagnostic failure) (rest : List String) :
    a.diagnostics (name :: rest) = failure :: a.diagnostics rest := by
  rw [diagnostics, List.map_cons, hf]
  rfl

end Answers

/-! ### Discovery under a setting in parts -/

namespace Discovery

variable {κ σ : Type}

theorem acceptedOf_of_parts {whole front back : ExtensionSetting} (hw : whole.Parts front back)
    (a : Answers κ) (policy : UnknownKindPolicy) :
    acceptedOf a whole policy = acceptedOf a front policy ++ acceptedOf a back policy := by
  rw [acceptedOf, hw.names_eq, Answers.modules_append, List.flatMap_append]
  congr 1
  · refine List.flatMap_congr fun m hm => ?_
    rw [hw.args?_of_mem_front (Answers.name_mem_of_mem_modules hm)]
  · refine List.flatMap_congr fun m hm => ?_
    rw [hw.args?_of_mem_back (Answers.name_mem_of_mem_modules hm)]

/-- A name that yields a diagnostic brings in nothing to accept. -/
theorem acceptedOf_of_failure {a : Answers κ} {single : ExtensionSetting} {name : String}
    {failure : Diagnostic} (hn : single.names = [name]) (hf : a.yield name = .diagnostic failure)
    (policy : UnknownKindPolicy) : acceptedOf a single policy = [] := by
  rw [acceptedOf, hn, Answers.modules_cons_of_failure hf]
  rfl

/-- **Discovery composes.** On a host that answers alike whenever it is asked, an attempt under a
setting in parts returns what the attempts under the parts return, put together: under every tag the
descriptors of the first part and then those of the last, and there are no further groups; of the
diagnostics, those of names first, and then those of exports, each in the order of the parts. With a
name put in between that fails, there is one diagnostic more, in the place of the name, and the
groups are the same. -/
theorem attempt_of_parts {h : Host κ σ} {a : Answers κ} (hh : h.Gives a)
    {whole front back : ExtensionSetting} (hw : whole.Parts front back)
    (policy : UnknownKindPolicy) (s t u : σ) :
    let x := (attempt front policy h s).1
    let y := (attempt back policy h t).1
    ∃ d e f, x.result = .ok d ∧ y.result = .ok e ∧
      (attempt whole policy h u).1.result = .ok f ∧
      (∀ tag, f.groups.withTag tag = d.groups.withTag tag ++ e.groups.withTag tag) ∧
      (∀ tag, tag ∈ f.groups.toList.map Group.tag ↔
        tag ∈ d.groups.toList.map Group.tag ∨ tag ∈ e.groups.toList.map Group.tag) ∧
      d.diagnostics = x.nameDiagnostics ++ x.exportDiagnostics ∧
      e.diagnostics = y.nameDiagnostics ++ y.exportDiagnostics ∧
      f.diagnostics = (x.nameDiagnostics ++ y.nameDiagnostics) ++
        (x.exportDiagnostics ++ y.exportDiagnostics) ∧
      ∀ (single rest more : ExtensionSetting) (name : String) (v : σ),
        more.Parts front rest → rest.Parts single back → single.names = [name] → a.Fails name →
        ∃ failure g, a.yield name = .diagnostic failure ∧
          (attempt more policy h v).1.result = .ok g ∧ g.groups = f.groups ∧
          g.diagnostics = (x.nameDiagnostics ++ failure :: y.nameDiagnostics) ++
            (x.exportDiagnostics ++ y.exportDiagnostics) := by
  intro x y
  have hx : FollowsAnswers a front policy x := attempt_of_gives hh front policy s
  have hy : FollowsAnswers a back policy y := attempt_of_gives hh back policy t
  have hz := attempt_of_gives hh whole policy u
  have hgroups : (attempt whole policy h u).1.found.groups =
      .ofList (acceptedOf a front policy ++ acceptedOf a back policy) := by
    rw [hz.groups, acceptedOf_of_parts hw]
  refine ⟨_, _, _, hx.result, hy.result, hz.result, ?_, ?_, Attempt.diagnostics_found x,
    Attempt.diagnostics_found y, ?_, ?_⟩
  · intro tag
    rw [hgroups, hx.groups, hy.groups]
    simp only [Groups.withTag_ofList, List.filter_append]
  · intro tag
    rw [hgroups, hx.groups, hy.groups]
    simp only [Groups.exists_tag_iff, List.mem_append, or_and_right, exists_or]
  · rw [Attempt.diagnostics_found, hz.nameDiagnostics, hz.exportDiagnostics, hw.names_eq,
      Answers.diagnostics_append, Answers.modules_append, List.flatMap_append,
      hx.nameDiagnostics, hx.exportDiagnostics, hy.nameDiagnostics, hy.exportDiagnostics]
  · intro single rest more name v hmore hrest hname hfails
    obtain ⟨failure, hfailure⟩ := Answers.exists_yield_of_fails hfails
    have hg := attempt_of_gives hh more policy v
    have hnames : more.names = front.names ++ name :: back.names := by
      rw [hmore.names_eq, hrest.names_eq, hname, List.singleton_append]
    refine ⟨failure, _, hfailure, hg.result, ?_, ?_⟩
    · rw [hgroups, hg.groups, acceptedOf_of_parts hmore,
        acceptedOf_of_parts hrest, acceptedOf_of_failure hname hfailure, List.nil_append]
    · rw [Attempt.diagnostics_found, hg.nameDiagnostics, hg.exportDiagnostics, hnames,
        Answers.diagnostics_append, Answers.diagnostics_cons_of_failure hfailure,
        Answers.modules_append, Answers.modules_cons_of_failure hfailure, List.flatMap_append,
        hx.nameDiagnostics, hx.exportDiagnostics, hy.nameDiagnostics, hy.exportDiagnostics]

/-- A name whose path makes the loader panic is put between one that loads and one that is not
found. -/
theorem attempt_of_parts_mixedTable :
    mixedTable.host.Gives mixedTable.answers ∧
      ExtensionSetting.Parts (.map [("lint", .bool true), ("ghost", .null)])
        (.map [("lint", .bool true)]) (.map [("ghost", .null)]) ∧
      mixedTable.answers.Fails "panics" ∧
      ∃ f g, (attempt (.map [("lint", .bool true), ("ghost", .null)]) .reject
          mixedTable.host 0).1.result = .ok f ∧
        (attempt (.map [("lint", .bool true), ("panics", .null), ("ghost", .null)]) .reject
          mixedTable.host 0).1.result = .ok g ∧
        g.groups = f.groups ∧ f.diagnostics.length = 3 ∧ g.diagnostics.length = 4 := by
  have hh : mixedTable.host.Gives mixedTable.answers :=
    HostTable.gives (by decide) fun p hp => by cases hp
  have hw : ExtensionSetting.Parts (.map [("lint", .bool true), ("ghost", .null)])
      (.map [("lint", .bool true)]) (.map [("ghost", .null)]) :=
    @ExtensionSetting.Parts.map [_] [_] (by simp)
  have hf : mixedTable.answers.Fails "panics" := by
    rintro path ⟨⟩ - exports hload
    cases hload
  obtain ⟨d, e, f, -, -, hfound, -, -, -, -, hdiagnostics, hmore⟩ :=
    attempt_of_parts hh hw .reject 0 0 0
  obtain ⟨failure, g, -, hg, hgroups, hgd⟩ := hmore (.map [("panics", .null)])
    (.map [("panics", .null), ("ghost", .null)])
    (.map [("lint", .bool true), ("panics", .null), ("ghost", .null)]) "panics" 0
    (@ExtensionSetting.Parts.map [_] [_, _] (by simp)) (@ExtensionSetting.Parts.map [_] [_] (by simp))
    rfl hf
  exact ⟨hh, hw, hf, f, g, hfound, hg, hgroups, by rw [hdiagnostics]; rfl, by rw [hgd]; rfl⟩

end Discovery

end LintDiscovery
