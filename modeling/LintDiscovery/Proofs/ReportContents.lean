/-
What a report shows.

A report takes the groups one after the other, so its extensions are those that were accepted,
sorted by the bytes of their tags and otherwise in the order in which they were accepted. Both forms
in which a report is printed show all of it, extensions first and then diagnostics. From the lines
it can be told at once whether there are extensions; from the JSON text the whole report is read
back.

* `Report.Shows`, `shows_ofDiscovery` — a report and what was accepted;
* `Report.OnLines`, `onLines_lines`, `OnLines.eq_lines` — a report on lines of text;
* `Report.notice_mem_iff`, `Report.notice_isPrefix_iff` — the notice that nothing was loaded;
* `Report.InJson`, `inJson_toJson_iff` — a report in a JSON value, which has no other report in it;
* `Report.parse_text` — the JSON text of a report read back.
-/
import LintDiscovery.Program.Report
import LintDiscovery.Proofs.DescriptorSoundness
import LintDiscovery.Proofs.PrettyReadBack
import Mathlib.Data.List.Forall2

namespace LintDiscovery

variable {κ σ : Type}

/-! ### Groups in order -/

namespace Groups

theorem filter_flatMap_members {l : List (Group κ)} (hl : l.Pairwise fun a b => a.tag < b.tag)
    (tag : String) :
    (l.flatMap Group.members).filter (fun x => x.kind.tag = tag) = membersOf tag l := by
  induction l with
  | nil => rfl
  | cons g rest ih =>
    obtain ⟨hg, hrest⟩ := List.pairwise_cons.mp hl
    rw [List.flatMap_cons, List.filter_append, ih hrest, membersOf]
    split
    · rename_i htag
      -- the groups behind have greater tags
      rw [membersOf_eq_nil fun g' hg' => htag ▸ hg g' hg', List.append_nil, List.filter_eq_self]
      intro x hx
      simp [g.tag_of_mem x hx, htag]
    · rename_i htag
      have hnone : g.members.filter (fun x => x.kind.tag = tag) = [] := by
        rw [List.filter_eq_nil_iff]
        intro x hx
        simp [g.tag_of_mem x hx, htag]
      rw [hnone, List.nil_append]

/-- The descriptors of a tag are those of its group. -/
theorem filter_descriptors (g : Groups κ) (tag : String) :
    g.descriptors.filter (fun x => x.kind.tag = tag) = g.withTag tag :=
  filter_flatMap_members g.ascending tag

/-- Descriptors are in the order of the bytes of their tags. -/
theorem pairwise_descriptors (g : Groups κ) :
    g.descriptors.Pairwise fun x y =>
      x.kind.tag = y.kind.tag ∨ Text.bytes x.kind.tag < Text.bytes y.kind.tag := by
  rw [descriptors, List.pairwise_flatMap]
  constructor
  · intro group _
    refine List.pairwise_of_forall_mem_list fun x hx y hy => .inl ?_
    rw [group.tag_of_mem x hx, group.tag_of_mem y hy]
  · refine g.ascending.imp fun {a b} hab x hx y hy => .inr ?_
    rw [a.tag_of_mem x hx, b.tag_of_mem y hy]
    exact Text.bytes_lt_bytes hab

end Groups

/-! ### Extensions and diagnostics -/

/-- A report shows descriptors and diagnostics: every descriptor once, with its name, its tag and
the form of what it carries, by the bytes of the tags and otherwise in the order that they have
here; and behind them the diagnostics. Walkers are what descriptors of the two known kinds carry,
and what all others carry is opaque. -/
structure Report.Shows (r : Report) (ds : List (Descriptor κ)) (diagnostics : List Diagnostic) :
    Prop where
  each : r.extensions.Perm (ds.map fun x => ⟨x.name, x.kind.tag, x.payload.form⟩)
  sorted : r.extensions.Pairwise fun a b =>
    a.kind = b.kind ∨ Text.bytes a.kind < Text.bytes b.kind
  stable : ∀ tag, r.extensions.filter (fun e => e.kind = tag) =
    (ds.filter fun x => x.kind.tag = tag).map fun x => ⟨x.name, x.kind.tag, x.payload.form⟩
  form : ∀ e ∈ r.extensions,
    e.form = if e.kind ∈ ["syntactic-lint", "semantic-lint"] then "walker" else "opaque"
  diagnostics : r.diagnostics = diagnostics

theorem Report.extensions_ofDiscovery (d : Discovery κ) :
    (Report.ofDiscovery d).extensions =
      d.groups.descriptors.map fun x => ⟨x.name, x.kind.tag, x.payload.form⟩ := by
  rw [Report.ofDiscovery, Groups.descriptors, List.map_flatMap]
  refine List.flatMap_congr fun g _ => List.map_congr_left fun x hx => ?_
  rw [ReportedExtension.ofDescriptor, g.tag_of_mem x hx]

theorem Admission.describes_of_mem_accepted {policy : UnknownKindPolicy} {module : String}
    {args : Option Json} {entries : List (String × Export κ)} {x : Descriptor κ}
    (hx : x ∈ accepted policy module args entries) :
    ∃ entry ∈ entries, x.Describes module args entry := by
  obtain ⟨entry, hentry, hjudge⟩ := List.mem_filterMap.mp hx
  exact ⟨entry, hentry, describes_of_judge hjudge⟩

theorem Descriptor.Describes.form_eq {x : Descriptor κ} {module : String} {args : Option Json}
    {entry : String × Export κ} (hx : x.Describes module args entry) :
    x.payload.form =
      if x.kind.tag ∈ ["syntactic-lint", "semantic-lint"] then "walker" else "opaque" := by
  have htag : x.kind.tag ∈ Kind.knownTags ↔ x.kind = .syntactic ∨ x.kind = .semantic := by
    obtain ⟨tag, -, hkind⟩ := hx.kind
    rw [← Kind.isKnown_iff, hkind, Kind.isKnown_ofTag, Kind.tag_ofTag, List.contains_iff_mem]
  have hwalker : x.kind.tag ∈ Kind.knownTags ↔ ∃ k, x.payload = .walker k := by
    rw [htag, hx.walker]
  show _ = if x.kind.tag ∈ Kind.knownTags then _ else _
  cases hpayload : x.payload with
  | walker k =>
    rw [if_pos (hwalker.mpr ⟨k, hpayload⟩)]
    rfl
  | uninterpreted e =>
    have hother : ¬x.kind.tag ∈ Kind.knownTags := by
      intro hknown
      obtain ⟨k, hk⟩ := hwalker.mp hknown
      cases hpayload.symm.trans hk
    rw [if_neg hother]
    rfl

/-- The report of an attempt shows what was accepted. -/
theorem Report.shows_ofDiscovery {setting : ExtensionSetting} {policy : UnknownKindPolicy}
    {h : Host κ σ} {s : σ} {d : Discovery κ}
    (hd : (Discovery.attempt setting policy h s).1.result = .ok d) :
    (Report.ofDiscovery d).Shows
      ((Discovery.attempt setting policy h s).1.phase.modules.flatMap fun m =>
        Admission.accepted policy m.name (setting.args? m.name) m.exports.entries)
      d.diagnostics := by
  obtain ⟨hi, rfl⟩ := Attempt.result_eq_ok_iff.mp hd
  rw [← Discovery.descriptors_attempt hi]
  have hext := Report.extensions_ofDiscovery (Discovery.attempt setting policy h s).1.found
  have hperm := Groups.perm_descriptors_ofList (Discovery.attempt setting policy h s).1.descriptors
  refine ⟨?_, ?_, fun tag => ?_, fun e he => ?_, rfl⟩
  · rw [hext]
    exact hperm.map _
  · rw [hext, List.pairwise_map]
    exact Groups.pairwise_descriptors _
  · rw [hext, List.filter_map]
    exact congrArg _ ((Groups.filter_descriptors _ tag).trans (Groups.withTag_ofList _ tag))
  · rw [hext] at he
    obtain ⟨x, hx, rfl⟩ := List.mem_map.mp he
    have hmem := hperm.mem_iff.mp hx
    rw [Discovery.descriptors_attempt hi] at hmem
    obtain ⟨m, -, hx⟩ := List.mem_flatMap.mp hmem
    obtain ⟨entry, -, hdescribes⟩ := Admission.describes_of_mem_accepted hx
    exact hdescribes.form_eq

/-! ### As text -/

/-- The word for a category. -/
inductive Category.Named : Category → String → Prop
  | error : Named .error "error"
  | warning : Named .warning "warning"
  | message : Named .message "message"

theorem Category.named_name (c : Category) : c.Named c.name := by
  cases c with
  | error => exact .error
  | warning => exact .warning
  | message => exact .message

theorem Category.Named.eq_name {c : Category} {word : String} (h : c.Named word) :
    word = c.name := by
  cases h <;> rfl

/-- A line has an extension on it: its kind in brackets, its name, and in parentheses the form of
what it carries. -/
def ReportedExtension.OnLine (e : ReportedExtension) (line : String) : Prop :=
  line = "  [" ++ e.kind ++ "] " ++ e.name ++ " (" ++ e.form ++ ")"

/-- A line has a diagnostic on it: the word for its category, its code, and its message. -/
def Diagnostic.OnLine (d : Diagnostic) (line : String) : Prop :=
  ∃ word, d.category.Named word ∧ line = word ++ " LK" ++ toString d.code ++ ": " ++ d.message

/-- Lines have a report on them: below a first line each extension, or else a notice that there is
none, and then each diagnostic. -/
inductive Report.OnLines (r : Report) : List String → Prop
  | loaded {es ds : List String} (hsome : r.extensions ≠ [])
      (hes : List.Forall₂ ReportedExtension.OnLine r.extensions es)
      (hds : List.Forall₂ Diagnostic.OnLine r.diagnostics ds) :
      r.OnLines ((programName ++ " " ++ version) :: (es ++ ds))
  | nothing {ds : List String} (hnone : r.extensions = [])
      (hds : List.Forall₂ Diagnostic.OnLine r.diagnostics ds) :
      r.OnLines ((programName ++ " " ++ version) :: "no extensions loaded" :: ds)

theorem ReportedExtension.onLine_line (e : ReportedExtension) : e.OnLine e.line :=
  rfl

theorem Diagnostic.onLine_display (d : Diagnostic) : d.OnLine d.display :=
  ⟨_, d.category.named_name, rfl⟩

theorem ReportedExtension.rightUnique_onLine : Relator.RightUnique OnLine := by
  rintro e line line' rfl rfl
  rfl

theorem Diagnostic.rightUnique_onLine : Relator.RightUnique OnLine := by
  rintro d line line' ⟨word, hword, rfl⟩ ⟨word', hword', rfl⟩
  rw [hword.eq_name, hword'.eq_name]

namespace Report

theorem onLines_lines (r : Report) : r.OnLines r.lines := by
  have hds : List.Forall₂ Diagnostic.OnLine r.diagnostics
      (r.diagnostics.map Diagnostic.display) :=
    List.forall₂_map_right_iff.mpr (List.forall₂_same.mpr fun d _ => d.onLine_display)
  by_cases hnone : r.extensions = []
  · rw [lines, hnone]
    exact .nothing hnone hds
  · have hes : List.Forall₂ ReportedExtension.OnLine r.extensions
        (r.extensions.map ReportedExtension.line) :=
      List.forall₂_map_right_iff.mpr (List.forall₂_same.mpr fun e _ => e.onLine_line)
    have hempty : r.extensions.isEmpty = false := by simpa using hnone
    rw [lines, hempty]
    exact .loaded hnone hes hds

theorem OnLines.eq_lines {r : Report} {lines : List String} (h : r.OnLines lines) :
    lines = r.lines := by
  have hlines := r.onLines_lines
  generalize r.lines = lines' at hlines
  cases h with
  | loaded hsome hes hds =>
    cases hlines with
    | loaded _ hes' hds' =>
      rw [List.right_unique_forall₂' ReportedExtension.rightUnique_onLine hes hes',
        List.right_unique_forall₂' Diagnostic.rightUnique_onLine hds hds']
    | nothing hnone _ => exact absurd hnone hsome
  | nothing hnone hds =>
    cases hlines with
    | loaded hsome _ _ => exact absurd hnone hsome
    | nothing _ hds' =>
      rw [List.right_unique_forall₂' Diagnostic.rightUnique_onLine hds hds']

theorem head?_line (e : ReportedExtension) : e.line.toList.head? = some ' ' := by
  simp [ReportedExtension.line, String.toList_append]

theorem head?_display (d : Diagnostic) :
    d.display.toList.head? = some 'e' ∨ d.display.toList.head? = some 'w' ∨
      d.display.toList.head? = some 'm' := by
  cases hc : d.category <;> simp [Diagnostic.display, Category.name, hc, String.toList_append]

/-- The notice is among the lines exactly when there are no extensions; no other line is like it,
whatever names and messages contain. -/
theorem notice_mem_iff {r : Report} {lines : List String} (h : r.OnLines lines) :
    "no extensions loaded" ∈ lines ↔ r.extensions = [] := by
  rw [h.eq_lines]
  have hfirst : "no extensions loaded".toList.head? = some 'n' := by decide
  constructor
  · intro hmem
    by_contra hne
    have hnone : r.extensions.isEmpty = false := by simpa using hne
    simp only [Report.lines, hnone, Bool.false_eq_true, if_false, List.nil_append, List.cons_append,
      List.mem_cons, List.mem_append, List.mem_map] at hmem
    rcases hmem with hheader | ⟨e, -, he⟩ | ⟨d, -, hd⟩
    · exact absurd hheader (by decide)
    · rw [← he, head?_line] at hfirst
      cases hfirst
    · rw [← hd] at hfirst
      rcases head?_display d with h | h | h <;> rw [h] at hfirst <;> cases hfirst
  · intro hnone
    simp [Report.lines, hnone]

/-- A text shows a report: it consists of lines that have the report on them. -/
def InText (r : Report) (text : String) : Prop :=
  ∃ lines, r.OnLines lines ∧ text = String.join (lines.map fun l => l ++ "\n")

theorem inText_unlines (r : Report) : r.InText (unlines r.lines) :=
  ⟨r.lines, r.onLines_lines, rfl⟩

theorem InText.toList_eq {r : Report} {text : String} (h : r.InText text) :
    text.toList = r.lines.flatMap fun l => l.toList ++ ['\n'] := by
  obtain ⟨lines, hlines, rfl⟩ := h
  rw [hlines.eq_lines]
  simp [String.toList_join, List.flatMap_map, String.toList_append]

/-- The text goes on with the notice below its first line exactly when there are no extensions. -/
theorem notice_isPrefix_iff {r : Report} {text : String} (h : r.InText text) :
    (programName ++ " " ++ version ++ "\nno extensions loaded\n").toList <+: text.toList ↔
      r.extensions = [] := by
  have hfront : (programName ++ " " ++ version ++ "\nno extensions loaded\n").toList =
      ((programName ++ " " ++ version).toList ++ ['\n']) ++ "no extensions loaded\n".toList := by
    decide
  rw [hfront, h.toList_eq, Report.lines, List.cons_append, List.cons_append, List.flatMap_cons,
    List.prefix_append_right_inj]
  rcases hext : r.extensions with _ | ⟨e, es⟩
  · simp
  · obtain ⟨cs, hcs⟩ := List.head?_eq_some_iff.mp (head?_line e)
    simp [hcs]

end Report

/-! ### As JSON -/

/-- A value has an extension in it: its name, its kind, and the form of what it carries. -/
structure ReportedExtension.InJson (e : ReportedExtension) (v : Json) : Prop where
  name : v.get? "name" = some (.string e.name)
  kind : v.get? "kind" = some (.string e.kind)
  form : v.get? "payload" = some (.string e.form)

/-- A value has a diagnostic in it: the word for its category, its code, its message, and its
arguments. -/
structure Diagnostic.InJson (d : Diagnostic) (v : Json) : Prop where
  category : ∃ word, d.category.Named word ∧ v.get? "category" = some (.string word)
  code : v.get? "code" = some (.number (.integer d.code))
  message : v.get? "message" = some (.string d.message)
  args : v.get? "args" = some (.array (d.args.map .string))

/-- A value has a report in it: an array with the extensions and one with the diagnostics, each of
them in its order. -/
structure Report.InJson (r : Report) (v : Json) : Prop where
  version : v.get? "version" = some (.string LintDiscovery.version)
  extensions : ∃ items, v.get? "extensions" = some (.array items) ∧
    List.Forall₂ ReportedExtension.InJson r.extensions items
  diagnostics : ∃ items, v.get? "diagnostics" = some (.array items) ∧
    List.Forall₂ Diagnostic.InJson r.diagnostics items

theorem ReportedExtension.inJson_toJson (e : ReportedExtension) : e.InJson e.toJson :=
  ⟨rfl, rfl, rfl⟩

theorem Diagnostic.inJson_toJson (d : Diagnostic) : d.InJson d.toJson :=
  ⟨⟨_, d.category.named_name, rfl⟩, rfl, rfl, rfl⟩

theorem Category.Named.unique {c c' : Category} {word : String} (h : c.Named word)
    (h' : c'.Named word) : c = c' := by
  have hname : some c = some c' := by
    rw [← ofName?_name, ← ofName?_name, ← h.eq_name, ← h'.eq_name]
  exact Option.some.inj hname

theorem Json.string_eq_of_get? {key s t : String} {v : Json} (h : v.get? key = some (.string s))
    (h' : v.get? key = some (.string t)) : s = t :=
  string.inj (Option.some.inj (h.symm.trans h'))

theorem Json.items_eq_of_get? {key : String} {vs ws : List Json} {v : Json}
    (h : v.get? key = some (.array vs)) (h' : v.get? key = some (.array ws)) : vs = ws :=
  array.inj (Option.some.inj (h.symm.trans h'))

theorem ReportedExtension.leftUnique_inJson : Relator.LeftUnique InJson := by
  rintro ⟨name, kind, form⟩ ⟨name', kind', form'⟩ v h h'
  have hname : name = name' := Json.string_eq_of_get? h.name h'.name
  have hkind : kind = kind' := Json.string_eq_of_get? h.kind h'.kind
  have hform : form = form' := Json.string_eq_of_get? h.form h'.form
  rw [hname, hkind, hform]

theorem Diagnostic.leftUnique_inJson : Relator.LeftUnique InJson := by
  rintro ⟨category, code, message, args⟩ ⟨category', code', message', args'⟩ v h h'
  have hcategory : category = category' := by
    obtain ⟨word, hword, hget⟩ := h.category
    obtain ⟨word', hword', hget'⟩ := h'.category
    rw [← Json.string_eq_of_get? hget hget'] at hword'
    exact hword.unique hword'
  have hcode : code = code' := by
    cases h.code.symm.trans h'.code
    rfl
  have hmessage : message = message' := Json.string_eq_of_get? h.message h'.message
  have hargs : args = args' :=
    List.map_injective_iff.mpr (fun _ _ => Json.string.inj) (Json.items_eq_of_get? h.args h'.args)
  rw [hcategory, hcode, hmessage, hargs]

namespace Report

theorem inJson_toJson (r : Report) : r.InJson r.toJson where
  version := rfl
  extensions :=
    ⟨_, rfl, List.forall₂_map_right_iff.mpr (List.forall₂_same.mpr fun e _ => e.inJson_toJson)⟩
  diagnostics :=
    ⟨_, rfl, List.forall₂_map_right_iff.mpr (List.forall₂_same.mpr fun d _ => d.inJson_toJson)⟩

theorem InJson.unique {r r' : Report} {v : Json} (h : r.InJson v) (h' : r'.InJson v) : r = r' := by
  obtain ⟨extensions, diagnostics⟩ := r
  obtain ⟨extensions', diagnostics'⟩ := r'
  obtain ⟨items, hitems, hextensions⟩ := h.extensions
  obtain ⟨items', hitems', hextensions'⟩ := h'.extensions
  obtain ⟨more, hmore, hdiagnostics⟩ := h.diagnostics
  obtain ⟨more', hmore', hdiagnostics'⟩ := h'.diagnostics
  rw [← Json.items_eq_of_get? hitems hitems'] at hextensions'
  rw [← Json.items_eq_of_get? hmore hmore'] at hdiagnostics'
  have heq : extensions = extensions' :=
    List.left_unique_forall₂' ReportedExtension.leftUnique_inJson hextensions hextensions'
  have heq' : diagnostics = diagnostics' :=
    List.left_unique_forall₂' Diagnostic.leftUnique_inJson hdiagnostics hdiagnostics'
  rw [heq, heq']

/-- The JSON value of a report has that report in it and no other. -/
theorem inJson_toJson_iff {r r' : Report} : r'.InJson r.toJson ↔ r' = r := by
  constructor
  · intro h
    exact h.unique r.inJson_toJson
  · rintro rfl
    exact inJson_toJson _

end Report

/-! ### Reading it back -/

namespace Json

theorem itemsAreWhole_iff (items : List Json) :
    itemsAreWhole items = true ↔ ∀ v ∈ items, v.isWhole = true := by
  induction items with
  | nil => simp [itemsAreWhole]
  | cons v items ih => simp [itemsAreWhole, ih]

end Json

open Json (Kept InRange)

theorem ReportedExtension.kept_toJson {levels : Nat} (hlevels : 1 < levels)
    (e : ReportedExtension) : Kept levels e.toJson := by
  refine .object hlevels (by simp) ?_
  simp [Kept.string]

theorem Diagnostic.kept_toJson {levels : Nat} (hlevels : 2 < levels) {d : Diagnostic}
    (hcode : d.code ≤ Json.maxInteger) : Kept levels d.toJson := by
  have hrange : InRange (.integer d.code) := ⟨by omega, by omega⟩
  have hargs : Kept (levels - 1) (.array (d.args.map .string)) := by
    refine .array (by omega) fun v hv => ?_
    obtain ⟨s, -, rfl⟩ := List.mem_map.mp hv
    exact .string
  refine .object (by omega) (by simp) ?_
  simp [Kept.string, hargs, Kept.number hrange]

namespace Report

theorem kept_toJson {r : Report} (hcodes : ∀ d ∈ r.diagnostics, d.code ≤ Json.maxInteger) :
    Kept Json.maxLevels r.toJson := by
  have hextensions : Kept (Json.maxLevels - 1)
      (.array (r.extensions.map ReportedExtension.toJson)) := by
    refine .array (by decide) fun v hv => ?_
    obtain ⟨e, -, rfl⟩ := List.mem_map.mp hv
    exact e.kept_toJson (by decide)
  have hdiagnostics : Kept (Json.maxLevels - 1) (.array (r.diagnostics.map Diagnostic.toJson)) := by
    refine .array (by decide) fun v hv => ?_
    obtain ⟨d, hd, rfl⟩ := List.mem_map.mp hv
    exact Diagnostic.kept_toJson (by decide) (hcodes d hd)
  refine .object (by decide) (by simp) ?_
  simp [Kept.string, hextensions, hdiagnostics]

theorem isWhole_toJson (r : Report) : r.toJson.isWhole = true := by
  have hstrings : ∀ args : List String, Json.itemsAreWhole (args.map .string) = true := fun args =>
    (Json.itemsAreWhole_iff _).mpr fun v hv => by
      obtain ⟨s, -, rfl⟩ := List.mem_map.mp hv
      rfl
  have hextensions : Json.itemsAreWhole (r.extensions.map ReportedExtension.toJson) = true :=
    (Json.itemsAreWhole_iff _).mpr fun v hv => by
      obtain ⟨e, -, rfl⟩ := List.mem_map.mp hv
      rfl
  have hdiagnostics : Json.itemsAreWhole (r.diagnostics.map Diagnostic.toJson) = true :=
    (Json.itemsAreWhole_iff _).mpr fun v hv => by
      obtain ⟨d, -, rfl⟩ := List.mem_map.mp hv
      simp [Diagnostic.toJson, Json.isWhole, Json.fieldsAreWhole, hstrings]
  simp [toJson, Json.isWhole, Json.fieldsAreWhole, hextensions, hdiagnostics]

/-- The JSON text of a report is read back as the report. -/
theorem parse_text {r : Report} (hcodes : ∀ d ∈ r.diagnostics, d.code ≤ Json.maxInteger) :
    Json.parse (r.text true) = .ok r.toJson := by
  have hblank : ∀ c ∈ ['\n'], Json.isSpace c = true := by
    rintro c (_ | ⟨_, ⟨⟩⟩)
    rfl
  exact Json.parse_prettyText (kept_toJson hcodes) r.isWhole_toJson ⟨['\n'], hblank⟩

end Report

end LintDiscovery
