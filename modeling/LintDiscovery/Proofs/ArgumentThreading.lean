/-
Names and arguments from the text of a configuration to the descriptors.

Extensions given as an object are names with arguments: each key is a name once, where it stood
first, and its argument is the last value it was given. Extensions given as an array are names
without arguments, as often as they stand there. `Config.arguments_of_ofText` says so of every text
that is read as a configuration, and of every discovery under it that returns.

* `Json.keys_merged`, `find?_merged_of_last` — what is left of fields with repeated keys;
* `Course` — what one name asks of a host, and the module it leads to;
* `LoadPhase.exists_courses_run` — a load phase is the courses of its names, one after the other;
* `Discovery.Follows` — what a discovery made of the courses of the configured names.
-/
import Mathlib.Data.List.Induction
import LintDiscovery.Proofs.Account
import LintDiscovery.Proofs.Documents
import LintDiscovery.Proofs.Grouping
import LintDiscovery.Proofs.Transcript

namespace LintDiscovery

open Json (Blanks Lead Spelling)

/-! ### Fields with repeated keys -/

namespace Json

theorem merged_concat (pairs : List (String × Json)) (key : String) (v : Json) :
    merged (pairs ++ [(key, v)]) = insert key v (merged pairs) := by
  rw [merged, List.foldl_append]
  rfl

/-- Each key stays where it stood first. -/
theorem keys_merged (pairs : List (String × Json)) :
    (merged pairs).map Prod.fst = (pairs.map Prod.fst).eraseDups := by
  induction pairs using List.reverseRecOn with
  | nil => rfl
  | append_singleton pairs pair ih =>
    obtain ⟨key, v⟩ := pair
    rw [merged_concat, List.map_append, List.eraseDups_append, ← ih]
    -- a key that is known keeps its place, and one that is new comes last
    by_cases hkey : key ∈ (merged pairs).map Prod.fst
    · have hknown : key ∈ pairs.map Prod.fst := by
        rw [ih] at hkey
        exact List.mem_eraseDups.mp hkey
      rw [keys_insert_of_known hkey]
      simp [List.removeAll, hknown]
    · have hnew : key ∉ pairs.map Prod.fst := fun hmem => by
        rw [ih] at hkey
        exact hkey (List.mem_eraseDups.mpr hmem)
      rw [insert_of_new hkey, List.map_append]
      simp [List.removeAll, hnew, List.eraseDups_cons]

/-- A key keeps the last of its values. -/
theorem find?_merged_of_last {key : String} {after : List (String × Json)}
    (h : key ∉ after.map Prod.fst) (before : List (String × Json)) (v : Json) :
    find? key (merged (before ++ (key, v) :: after)) = some v := by
  induction after using List.reverseRecOn with
  | nil => rw [merged_concat, find?_insert_self]
  | append_singleton after pair ih =>
    obtain ⟨other, w⟩ := pair
    rw [List.map_append, List.mem_append, not_or] at h
    have hne : other ≠ key := fun heq => h.2 (by simp [heq])
    rw [← List.cons_append, ← List.append_assoc, merged_concat, find?_insert_of_ne hne]
    exact ih h.1

theorem find?_merged_of_missing {key : String} {pairs : List (String × Json)}
    (h : key ∉ pairs.map Prod.fst) : find? key (merged pairs) = none := by
  induction pairs using List.reverseRecOn with
  | nil => rfl
  | append_singleton pairs pair ih =>
    obtain ⟨other, w⟩ := pair
    rw [List.map_append, List.mem_append, not_or] at h
    have hne : other ≠ key := fun heq => h.2 (by simp [heq])
    rw [merged_concat, find?_insert_of_ne hne]
    exact ih h.1

end Json

/-! ### One name after the other -/

/-- What a name asks of a host, with the answers it gets, and the module it leads to. -/
inductive Course {κ : Type} (file : Path) (name : String) :
    List (Exchange κ) → Option (LoadedModule κ) → Prop
  | unresolved (e : ResolveError) : Course file name [.resolve name file (.ok (.error e))] none
  | withoutLoader (path : Path) :
      Course file name [.resolve name file (.ok (.ok path)), .hasLoader (.ok false)] none
  | panicked (path : Path) (p : Panic) :
      Course file name [.resolve name file (.ok (.ok path)), .hasLoader (.ok true),
        .load path (.error p)] none
  | failed (path : Path) (events : List Event) (e : LoadError) :
      Course file name [.resolve name file (.ok (.ok path)), .hasLoader (.ok true),
        .load path (.ok ⟨.error e, events⟩)] none
  | loaded (path : Path) (events : List Event) (exports : ExportTable κ) :
      Course file name [.resolve name file (.ok (.ok path)), .hasLoader (.ok true),
        .load path (.ok ⟨.ok exports, events⟩)] (some ⟨name, path, exports⟩)

theorem name_mem_of_courses {κ : Type} {file : Path} {names : List String}
    {parts : List (List (Exchange κ) × Option (LoadedModule κ))}
    (h : List.Forall₂ (fun name part => Course file name part.1 part.2) names parts)
    {m : LoadedModule κ} (hm : m ∈ parts.filterMap Prod.snd) : m.name ∈ names := by
  induction h with
  | nil => cases hm
  | @cons name part names parts hcourse _ ih =>
    obtain ⟨u, module?⟩ := part
    cases hcourse with
    | loaded path events exports =>
      rcases List.mem_cons.mp hm with rfl | hm
      · exact List.mem_cons_self
      · exact List.mem_cons_of_mem name (ih hm)
    | _ => exact List.mem_cons_of_mem name (ih hm)

namespace LoadPhase

variable {κ σ : Type}

/-- The turn of a name that is settled is its course. -/
theorem Turn.course {file : Path} {name : String} {u : List (Exchange κ)} {fate : Fate κ}
    (h : Turn file name u (.ok fate)) : Course file name u (SettledName.module? ⟨name, fate⟩) := by
  cases h with
  | unresolved e => exact .unresolved e
  | withoutLoader path => exact .withoutLoader path
  | load path answer =>
    rcases answer with p | ⟨e | exports, events⟩
    · exact .panicked path p
    · exact .failed path events e
    · exact .loaded path events exports

theorem Turns.exists_courses {file : Path} {names : List String} {u : List (Exchange κ)}
    {phase : LoadPhase κ} (h : Turns file names u phase) (hi : phase.interruption = none) :
    ∃ parts : List (List (Exchange κ) × Option (LoadedModule κ)),
      u = parts.flatMap Prod.fst ∧
      List.Forall₂ (fun name part => Course file name part.1 part.2) names parts ∧
      phase.modules = parts.filterMap Prod.snd := by
  induction h with
  | nil => exact ⟨[], rfl, .nil, rfl⟩
  | @cons name _ u _ fate _ hturn _ ih =>
    obtain ⟨parts, rfl, hcourses, hmodules⟩ := ih hi
    refine ⟨(u, SettledName.module? ⟨name, fate⟩) :: parts, rfl, .cons hturn.course hcourses, ?_⟩
    simp only [modules, List.filterMap_cons] at hmodules ⊢
    rw [hmodules]
  | cut _ => cases hi

/-- A load phase that nothing interrupts asks for the directory and then runs the courses of its
names, each on its own. -/
theorem exists_courses_run {h : Host κ σ} {names : List String} {s : σ}
    (hi : (run h names s).1.interruption = none) :
    ∃ directory parts,
      run h.transcribed names (s, []) = ((run h names s).1, ((run h names s).2,
        .directory (.ok directory) :: parts.flatMap Prod.fst)) ∧
      List.Forall₂ (fun name part => Course (containingFile directory) name part.1 part.2)
        names parts ∧
      (run h names s).1.modules = parts.filterMap Prod.snd := by
  obtain ⟨u, hu, hruns⟩ := exists_runs h names s
  have hnoted := hu.noted []
  generalize (run h names s).1 = phase at hi hruns hnoted ⊢
  cases hruns with
  | directory p => cases hi
  | names hturns =>
    obtain ⟨parts, rfl, hcourses, hmodules⟩ := hturns.exists_courses hi
    exact ⟨_, parts, hnoted, hcourses, hmodules⟩

end LoadPhase

/-! ### Discovery -/

theorem Admission.args_of_mem_accepted {κ : Type} {policy : UnknownKindPolicy} {module : String}
    {args : Option Json} {entries : List (String × Export κ)} {x : Descriptor κ}
    (hx : x ∈ accepted policy module args entries) : x.args = args := by
  obtain ⟨entry, -, hd⟩ := List.mem_filterMap.mp hx
  rcases htag : entry.2.kindTag? with _ | tag
  · simp [judge, htag, Verdict.descriptor?] at hd
  rcases hp : payload? policy (Kind.ofTag tag) entry.2 with _ | payload
  · simp only [judge, htag, hp] at hd
    split at hd <;> cases hd
  · simp only [judge, htag, hp, Verdict.descriptor?, Option.some.injEq] at hd
    rw [← hd]

/-- What a discovery made of the courses of the names in a setting: they are the names in their
order, one course for each, and the descriptors are those of the modules that the courses led to,
each with the argument of its module's name. -/
structure Discovery.Follows {κ : Type} (setting : ExtensionSetting) (policy : UnknownKindPolicy)
    (file : Path) (parts : List (List (Exchange κ) × Option (LoadedModule κ)))
    (d : Discovery κ) : Prop where
  courses : List.Forall₂ (fun name part => Course file name part.1 part.2) setting.names parts
  groups : d.groups.Holds ((parts.filterMap Prod.snd).flatMap fun m =>
    Admission.accepted policy m.name (setting.args? m.name) m.exports.entries)
  args : ∀ x ∈ d.groups.descriptors, ∃ m ∈ parts.filterMap Prod.snd, m.name ∈ setting.names ∧
    x ∈ Admission.accepted policy m.name (setting.args? m.name) m.exports.entries ∧
      x.args = setting.args? m.name

theorem Discovery.exists_follows {κ σ : Type} {setting : ExtensionSetting}
    {policy : UnknownKindPolicy} {h : Host κ σ} {s : σ} {d : Discovery κ}
    (hd : (attempt setting policy h s).1.result = .ok d) :
    ∃ directory parts,
      (attempt setting policy h.transcribed (s, [])).2.2 =
        .directory (.ok directory) :: parts.flatMap Prod.fst ∧
      d.Follows setting policy (containingFile directory) parts := by
  obtain ⟨hi, rfl⟩ := Attempt.result_eq_ok_iff.mp hd
  obtain ⟨directory, parts, hrun, hcourses, hmodules⟩ := LoadPhase.exists_courses_run hi
  have hholds : (attempt setting policy h s).1.found.groups.Holds _ := Groups.holds_ofList _
  rw [descriptors_attempt hi,
    show (attempt setting policy h s).1.phase.modules = parts.filterMap Prod.snd from hmodules]
    at hholds
  refine ⟨directory, parts, ?_, hcourses, hholds, fun x hx => ?_⟩
  · simp only [attempt, hrun]
  · -- the descriptors in the groups are those that were accepted, in another order
    obtain ⟨m, hm, hx⟩ := List.mem_flatMap.mp (hholds.perm.mem_iff.mp hx)
    exact ⟨m, hm, name_mem_of_courses hcourses hm, hx, Admission.args_of_mem_accepted hx⟩

/-! ### From the text -/

namespace ExtensionSetting

/-- Names with arguments, given as keys with values: a repeated key is a name once, where it stood
first, and has the last of its values as its argument. -/
structure IsMapOf (pairs : List (String × Json)) (s : ExtensionSetting) : Prop where
  names : s.names = (pairs.map Prod.fst).eraseDups
  size : s.size = (pairs.map Prod.fst).eraseDups.length
  last : ∀ before name v after, pairs = before ++ (name, v) :: after →
    name ∉ after.map Prod.fst → s.args? name = some v
  missing : ∀ name, name ∉ pairs.map Prod.fst → s.args? name = none

/-- Names without arguments, as often as they were given. -/
structure IsListOf (given : List String) (s : ExtensionSetting) : Prop where
  names : s.names = given
  size : s.size = given.length
  args : ∀ name, s.args? name = none

theorem isMapOf_merged (pairs : List (String × Json)) :
    (map (Json.merged pairs)).IsMapOf pairs where
  names := Json.keys_merged pairs
  size := congrArg List.length (Json.keys_merged pairs)
  last := by
    rintro before name v after rfl hafter
    exact Json.find?_merged_of_last hafter before v
  missing _ h := Json.find?_merged_of_missing h

theorem isListOf_list (names : List String) : (list names).IsListOf names :=
  ⟨rfl, rfl, fun _ => rfl⟩

theorem exists_isMapOf {fields : List (Lead × Spelling × Blanks)} {inner : Blanks}
    {s : ExtensionSetting} (h : ofSpelling? (.object fields inner) = some s) :
    ∃ pairs, Spelling.fieldValues? (Config.innerLevels - 1) fields = some pairs ∧
      s.IsMapOf pairs := by
  obtain ⟨v, hv, hs⟩ := Option.bind_eq_some_iff.mp h
  have hdeep : ¬Config.innerLevels ≤ 1 := by decide
  rw [Spelling.value?, if_neg hdeep] at hv
  obtain ⟨pairs, hpairs, rfl⟩ := Option.map_eq_some_iff.mp hv
  cases hs
  exact ⟨pairs, hpairs, isMapOf_merged pairs⟩

theorem exists_isListOf {items : List (Blanks × Spelling × Blanks)} {inner : Blanks}
    {s : ExtensionSetting} (h : ofSpelling? (.array items inner) = some s) :
    ∃ names, Spelling.itemValues? (Config.innerLevels - 1) items = some (names.map .string) ∧
      s.IsListOf names := by
  obtain ⟨v, hv, hs⟩ := Option.bind_eq_some_iff.mp h
  have hdeep : ¬Config.innerLevels ≤ 1 := by decide
  rw [Spelling.value?, if_neg hdeep] at hv
  obtain ⟨vs, hvs, rfl⟩ := Option.map_eq_some_iff.mp hv
  obtain ⟨names, hnames, rfl⟩ := Option.map_eq_some_iff.mp hs
  -- only strings can be the items of a list of names
  have hitems : vs = names.map .string := items_of_mapM_asString? hnames
  exact ⟨names, by rw [hvs, hitems], isListOf_list names⟩

end ExtensionSetting

/-- **Names and arguments get from the text to the descriptors.** Extensions that a text gives as an
object are names with arguments, those that it gives as an array are names without. Under either
policy, a discovery that returns ran one course for each name, in the order of the names, and every
descriptor has the argument of the name that led to its module. -/
theorem Config.arguments_of_ofText {doc : Document} {c : Config} (hc : ofText doc.text = .ok c) :
    (∀ fields inner, (.extensions, .object fields inner) ∈ doc.settings →
      ∃ pairs, Spelling.fieldValues? (innerLevels - 1) fields = some pairs ∧
        c.extensions.IsMapOf pairs) ∧
    (∀ items inner, (.extensions, .array items inner) ∈ doc.settings →
      ∃ names, Spelling.itemValues? (innerLevels - 1) items = some (names.map .string) ∧
        c.extensions.IsListOf names) ∧
    ∀ {κ σ : Type} (policy : UnknownKindPolicy) (h : Host κ σ) (s : σ) (d : Discovery κ),
      (Discovery.attempt c.extensions policy h s).1.result = .ok d →
        ∃ directory parts,
          (Discovery.attempt c.extensions policy h.transcribed (s, [])).2.2 =
            .directory (.ok directory) :: parts.flatMap Prod.fst ∧
          d.Follows c.extensions policy (containingFile directory) parts := by
  obtain ⟨-, -, holds⟩ := (ofText_text_iff doc c).mp hc
  exact ⟨fun fields inner hmem => ExtensionSetting.exists_isMapOf (holds.found _ _ hmem),
    fun items inner hmem => ExtensionSetting.exists_isListOf (holds.found _ _ hmem),
    fun policy h s d hd => Discovery.exists_follows hd⟩

/-- Extensions with a repeated key and a value that is null. -/
def repeatedKeys : Document :=
  ⟨.none, .object [Spelling.plainField "extensions" (.object [
    Spelling.plainField "lint" .null, Spelling.plainField "ghost" (.array [] .none),
    Spelling.plainField "lint" (.bool true), Spelling.plainField "panics" .null] .none)] .none,
    .none⟩

theorem arguments_of_repeatedKeys :
    ∃ c d directory parts, Config.ofText repeatedKeys.text = .ok c ∧
      c.extensions.names = ["lint", "ghost", "panics"] ∧
      c.extensions.args? "lint" = some (.bool true) ∧
      c.extensions.args? "panics" = some .null ∧ c.extensions.args? "other" = none ∧
      (Discovery.attempt c.extensions .reject mixedTable.host 0).1.result = .ok d ∧
      d.Follows c.extensions .reject (containingFile directory) parts ∧
      d.groups.descriptors.map Descriptor.args = [some (.bool true)] := by
  have hc : Config.ofText repeatedKeys.text = .ok ⟨.map [
      ("lint", .bool true), ("ghost", .array []), ("panics", .null)], .passThrough, []⟩ := by
    refine eq_ok_of_toOption ?_
    decide +kernel
  obtain ⟨hobject, -, hdiscovery⟩ := Config.arguments_of_ofText hc
  obtain ⟨pairs, hpairs, hmap⟩ := hobject _ _ List.mem_cons_self
  have hgiven : some pairs = some [
      ("lint", .null), ("ghost", .array []), ("lint", .bool true), ("panics", .null)] := by
    rw [← hpairs]
    decide +kernel
  cases hgiven
  obtain ⟨directory, parts, -, hfollows⟩ := hdiscovery .reject mixedTable.host 0 _ rfl
  refine ⟨_, _, directory, parts, hc, hmap.names, ?_, ?_, ?_, rfl, hfollows, ?_⟩
  · exact hmap.last [("lint", .null), ("ghost", .array [])] "lint" (.bool true) _ rfl (by decide)
  · exact hmap.last [("lint", .null), ("ghost", .array []), ("lint", .bool true)] "panics" .null []
      rfl (by decide)
  · exact hmap.missing "other" (by decide)
  · rfl

end LintDiscovery
