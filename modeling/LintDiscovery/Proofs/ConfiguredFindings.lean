/-
From a configuration to the findings of the sample extension.

A configuration may give the sample extension a message. It gets from the text into the argument of
the name, from there into the descriptor that discovery makes of the default export, and with the
context of the constructor into the walker, which puts it into every finding. The extension may be
configured under any name and among any others, as long as the host loads its exports for this name.

* `NoDebugger.Says`, `NoDebugger.Words` — what an argument gives, and the message that comes of it;
* `NoDebugger.Treats`, `forall₂_treats` — what is recorded at each node;
* `NoDebugger.arguments_reach_findings` — all of it together.
-/
import LintDiscovery.Proofs.LoadedModules
import LintDiscovery.Proofs.RunOutcome
import LintDiscovery.Proofs.SpelledArguments
import LintDiscovery.Sample.NoDebugger

namespace LintDiscovery

open Json (Spelling)

variable {κ : Type}

/-! ### The message -/

namespace NoDebugger

/-- An argument gives a message: it is an object whose field of this name is a string. -/
def Says (args : Option Json) (text : String) : Prop :=
  ∃ fields, args = some (.object fields) ∧ Json.find? "message" fields = some (.string text)

/-- An argument that is spelled gives a message. The last field of a name counts. -/
def SaysSpelled (given : Option Spelling) (text : String) : Prop :=
  ∃ t u, given = some t ∧ t.field? "message" = some u ∧ u.content? = some text

/-- The message of findings, by what is given: that message, or a fixed one where none is given. -/
structure Words (given : String → Prop) (message : String) : Prop where
  own : ∀ text, given text → message = text
  standard : (∀ text, ¬given text) → message = "unexpected debugger statement"

theorem says_iff (args : Option Json) (text : String) :
    Says args text ↔ (args.bind (Json.get? "message")).bind Json.asString? = some text := by
  constructor
  · rintro ⟨fields, rfl, hfield⟩
    show (Json.find? "message" fields).bind Json.asString? = some text
    rw [hfield]
    rfl
  · intro h
    obtain ⟨v, hv, htext⟩ := Option.bind_eq_some_iff.mp h
    obtain ⟨args, rfl, hget⟩ := Option.bind_eq_some_iff.mp hv
    cases args with
    | object fields =>
      cases v with
      | string s =>
        cases htext
        exact ⟨fields, rfl, hget⟩
      | _ => cases htext
    | _ => cases hget

theorem words_messageOf (args : Option Json) : Words (Says args) (messageOf args) where
  own text h := by rw [messageOf, (says_iff args text).mp h, Option.getD_some]
  standard h := by
    rcases hfield : (args.bind (Json.get? "message")).bind Json.asString? with _ | text
    · rw [messageOf, hfield]
      rfl
    · exact absurd ((says_iff args text).mpr hfield) (h text)

/-- An argument gives the message that its spelling gives. -/
theorem says_iff_of_rel {given : Option Spelling} {args : Option Json} {levels : Nat}
    (h : Option.Rel (fun u w => u.value? levels = some w) given args) (text : String) :
    Says args text ↔ SaysSpelled given text := by
  rw [says_iff]
  cases h with
  | none => simp [SaysSpelled]
  | @some t v hv =>
    have hfield := Spelling.rel_field? hv "message"
    show (v.get? "message").bind Json.asString? = some text ↔ _
    have hspelled : SaysSpelled (some t) text ↔
        (t.field? "message").bind Spelling.content? = some text := by
      simp [SaysSpelled, Option.bind_eq_some_iff]
    rw [hspelled]
    generalize t.field? "message" = u, v.get? "message" = w at hfield
    cases hfield with
    | none => exact Iff.rfl
    | some hw => rw [Option.bind_some, Option.bind_some, Spelling.asString?_of_value? hw]

/-! ### The findings -/

/-- What is recorded at a node: a finding with the message at nodes of one kind, a stop at nodes of
another, and nothing at all others. -/
inductive Treats (message : String) (n : Node) : Except Panic Visit → Prop
  | reported (hkind : n.kind = "DebuggerStatement") :
      Treats message n (.ok ⟨false, [⟨some "no-debugger", message, some n.span⟩]⟩)
  | spared (hkind : n.kind = "InterfaceDeclaration") : Treats message n (.ok ⟨true, []⟩)
  | passed (hreported : n.kind ≠ "DebuggerStatement") (hspared : n.kind ≠ "InterfaceDeclaration") :
      Treats message n (.ok ⟨false, []⟩)

theorem treats_visit (args : Option Json) (n : Node) :
    Treats (messageOf args) n ((walker args).visit n ()).1 := by
  show Treats _ n (.ok (Visit.after n (commands (messageOf args) n)))
  unfold commands
  split
  · rename_i hkind
    exact .reported hkind
  · rename_i hreported
    split
    · rename_i hkind
      exact .spared hkind
    · rename_i hspared
      exact .passed hreported hspared

theorem forall₂_treats (args : Option Json) (ns : List Node) :
    List.Forall₂ (Treats (messageOf args)) ns ((walker args).visitAll ns ()).1 := by
  induction ns with
  | nil => exact .nil
  | cons n ns ih => exact .cons (treats_visit args n) ih

/-! ### The descriptors -/

/-- The descriptor of the default export. -/
def linter (name : String) (args : Option Json) (constructor : κ) : Descriptor κ :=
  ⟨name, args, .syntactic, .walker constructor, .empty⟩

/-- The descriptor of the formatter. -/
def formatter (name : String) (args : Option Json) : Descriptor κ :=
  ⟨name ++ "[formatter]", args, .custom "formatter", .uninterpreted (.data
    (some (.string "formatter")) (.object [("indent", .number (.integer 2))])), .empty⟩

/-- What a policy accepts of the module. -/
def descriptors (name : String) (args : Option Json) (constructor : κ) :
    UnknownKindPolicy → List (Descriptor κ)
  | .passThrough => [linter name args constructor, formatter name args]
  | .reject => [linter name args constructor]

/-- What there is to be said against the module under a policy. -/
def complaints (name : String) : UnknownKindPolicy → List Diagnostic
  | .passThrough => []
  | .reject => [.ofEntry Catalog.kindUnsupported [name, "formatter", "formatter"]]

theorem accepted_exports (policy : UnknownKindPolicy) (name : String) (args : Option Json)
    (constructor : κ) :
    Admission.accepted policy name args (exports constructor).entries =
      descriptors name args constructor policy := by
  have hformatter : Descriptor.nameOf name "formatter" = name ++ "[formatter]" := by
    rw [Descriptor.nameOf, if_neg (by decide), String.append_assoc, String.append_assoc]
    rfl
  cases policy with
  | passThrough =>
    rw [descriptors, formatter, ← hformatter]
    rfl
  | reject => rfl

theorem complaints_exports (policy : UnknownKindPolicy) (name : String) (constructor : κ) :
    ((exports constructor).entries.filterMap fun entry =>
      entry.2.complaint? policy name entry.1) = complaints name policy := by
  cases policy with
  | passThrough => rfl
  | reject => rfl

theorem instantiate?_linter {T H P C ω : Type} (name : String) (args : Option Json)
    (constructor : κ) (construct : κ → Context T H P C → ω) (services : Services T H P C) :
    (linter name args constructor).instantiate? construct services =
      some (construct constructor (.syntactic args services)) :=
  rfl

/-! ### All of it together -/

/-- **Configured arguments reach the findings.** A configuration names an extension once exactly
where its text does, and gives it the message that the text gives last. On a host that loads the
exports of the sample extension for this name, discovery returns under either policy. It makes the
linter of the default export, which is called like the module, and passes the formatter through or
complains about its kind. The walker that the linter constructs records one finding with the message
at every debugger statement, stops at every interface declaration, and does nothing at other
nodes. -/
theorem arguments_reach_findings :
    (∀ {doc : Document} {c : Config} (name : String), Config.ofText doc.text = .ok c →
      (c.extensions.names.count name = 1 ↔
        ∃ t given, (.extensions, t) ∈ doc.settings ∧ t.NamesOnce name given) ∧
      ∀ t given, (.extensions, t) ∈ doc.settings → t.NamesOnce name given →
        ∀ text, Says (c.extensions.args? name) text ↔ SaysSpelled given text) ∧
    ∀ {κ σ : Type} {h : Host κ σ} {s : σ} {setting : ExtensionSetting} {name : String} {k : κ},
      setting.names.count name = 1 → h.Loads s setting.names name (exports k) →
      ∃ message, Words (Says (setting.args? name)) message ∧
        ∀ policy, ∃ front path back d,
          (Discovery.attempt setting policy h s).1.Admits setting policy front
            ⟨name, path, exports k⟩ back (descriptors name (setting.args? name) k policy)
            (complaints name policy) d ∧
          (setting.size = 1 →
            d.groups.Holds (descriptors name (setting.args? name) k policy) ∧
            d.diagnostics = complaints name policy) ∧
          (∀ x ∈ descriptors name (setting.args? name) k policy, x ∈ d.groups.ofKind x.kind) ∧
          ∀ {T H P C : Type} (construct : κ → Context T H P C → Walker Unit)
            (services : Services T H P C), construct k = NoDebugger.construct →
            ∃ w, (linter name (setting.args? name) k).instantiate? construct services = some w ∧
              ∀ ns, List.Forall₂ (Treats message) ns (w.visitAll ns ()).1 := by
  refine ⟨fun name hc => ⟨Config.count_eq_one_iff hc name, fun t given ht hnames => ?_⟩,
    fun {_ _ h s setting name k} hone hload => ?_⟩
  · exact says_iff_of_rel (Config.rel_args? hc ht hnames)
  · refine ⟨messageOf (setting.args? name), words_messageOf _, fun policy => ?_⟩
    obtain ⟨front, path, back, d, hadmits⟩ := Discovery.exists_admits hone hload policy
    rw [accepted_exports, complaints_exports] at hadmits
    refine ⟨front, path, back, d, hadmits, hadmits.alone, fun x hx => hadmits.mem_ofKind hx,
      fun construct services hconstruct => ⟨walker (setting.args? name), ?_, forall₂_treats _⟩⟩
    rw [instantiate?_linter, hconstruct]
    rfl

/-- An argument that gives two messages, the first of them no string. -/
def twoMessages : Spelling :=
  .object [Spelling.plainField "message" .null,
    Spelling.plainField "message" (.string (.plain "remove debugger"))] .none

/-- Extensions with a repeated name, and with one that leads nowhere. -/
def repeatedName : Spelling :=
  .object [Spelling.plainField "lint" (.bool true), Spelling.plainField "ghost" .null,
    Spelling.plainField "lint" twoMessages] .none

/-- A configuration with these extensions. -/
def sampleConfig : Document :=
  ⟨.none, .object [Spelling.plainField "extensions" repeatedName] .none, .none⟩

/-- A tree with the library of the sample extension. -/
def sampleTree : FileTree (Library.Image Unit) := .directory [
  ("work", .directory [("lint_extensions", .directory [
    ("liblint.so", .image (.ofExports (exports ())))])])]

theorem findings_of_sampleConfig :
    ∃ c front path back d w, Config.ofText sampleConfig.text = .ok c ∧
      (Discovery.attempt c.extensions .reject
        (Library.host (FileTree.disk ["work"]) sampleTree c.dirs (some ⟨"/work"⟩)) ()).1.Admits
          c.extensions .reject front ⟨"lint", path, exports ()⟩ back
          [linter "lint" (c.extensions.args? "lint") ()]
          [.ofEntry Catalog.kindUnsupported ["lint", "formatter", "formatter"]] d ∧
      (linter "lint" (c.extensions.args? "lint") ()).instantiate?
        (fun _ context => NoDebugger.construct context)
        (⟨(), (), (), ()⟩ : Services Unit Unit Unit Unit) = some w ∧
      ∀ ns, List.Forall₂ (Treats "remove debugger") ns (w.visitAll ns ()).1 := by
  obtain ⟨hspelled, hfindings⟩ := arguments_reach_findings
  have hc : Config.ofText sampleConfig.text = .ok ⟨.map [
      ("lint", .object [("message", .string "remove debugger")]), ("ghost", .null)],
      .passThrough, []⟩ := by
    refine eq_ok_of_toOption ?_
    decide +kernel
  have hgiven : (.extensions, repeatedName) ∈ sampleConfig.settings := List.mem_cons_self
  have hnames : repeatedName.NamesOnce "lint" (some twoMessages) := .mapped rfl
  obtain ⟨hcount, hgives⟩ := hspelled "lint" hc
  have hlint : "lint" ∈ ["lint", "ghost"] := List.mem_cons_self
  have hload := (Library.gives (FileTree.disk ["work"]) sampleTree [] (some ⟨"/work"⟩)).loads
    hlint rfl ()
  obtain ⟨message, hwords, hpolicies⟩ :=
    hfindings (hcount.mpr ⟨_, _, hgiven, hnames⟩) hload
  obtain ⟨front, path, back, d, hadmits, -, -, hwalker⟩ := hpolicies .reject
  obtain ⟨w, hw, htreats⟩ :=
    hwalker (fun _ context => NoDebugger.construct context) ⟨(), (), (), ()⟩ rfl
  have hmessage : message = "remove debugger" := by
    refine hwords.own _ ((hgives _ _ hgiven hnames _).mpr ?_)
    exact ⟨twoMessages, _, rfl, rfl, by decide⟩
  subst hmessage
  exact ⟨_, front, path, back, d, w, hc, hadmits, hw, htreats⟩

end NoDebugger

end LintDiscovery
