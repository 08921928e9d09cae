/-
Descriptors go with their exports.

The types let any kind stand beside any payload. A descriptor of a discovery has the payload that
goes with its kind, and both come from one export: the kind is the one that the tag of the export
names, and the payload is the constructor of the export for the two known kinds and the export
itself for all others. This is settled where an export is judged; grouping only moves descriptors
about. What a traversal gets when it asks for a walker follows from the descriptor alone.

* `Descriptor.Describes` — what a descriptor has of its export;
* `Admission.describes_of_judge` — accepted exports are described;
* `Descriptor.Constructs` — what comes of asking for a walker;
* `Descriptor.Describes.constructs` — descriptors of exports construct what they should;
* `descriptors_of_attempt` — the descriptors of an attempt.
-/
import LintDiscovery.Module.Construction
import LintDiscovery.Proofs.Grouping
import Mathlib.Data.List.Forall2

namespace LintDiscovery

variable {κ σ : Type}

/-! ### Descriptors and their exports -/

/-- A descriptor has the name that the key of an export makes with its module's, the argument of the
module, the kind that the tag of the export names, and the payload that goes with the kind. -/
structure Descriptor.Describes (x : Descriptor κ) (module : String) (args : Option Json)
    (entry : String × Export κ) : Prop where
  name : x.name = nameOf module entry.1
  args : x.args = args
  nonempty : entry.2 ≠ .empty
  kind : ∃ tag, entry.2.kindTag? = some tag ∧ x.kind = Kind.ofTag tag
  walker : (∃ k, x.payload = .walker k) ↔ x.kind = .syntactic ∨ x.kind = .semantic
  constructor : ∀ k, x.payload = .walker k → entry.2.constructor? = some k
  uninterpreted : ∀ e, x.payload = .uninterpreted e → e = entry.2
  timings : x.timings.records = []

/-- A kind is known when it is one of two. -/
theorem Kind.isKnown_iff (kind : Kind) :
    kind.isKnown = true ↔ kind = .syntactic ∨ kind = .semantic := by
  cases kind <;> simp [isKnown]

namespace Admission

/-- What an export carries goes with its kind. -/
theorem payload?_eq_some {policy : UnknownKindPolicy} {kind : Kind} {e : Export κ}
    {payload : Payload κ} (hp : payload? policy kind e = some payload) :
    (kind.isKnown = true ∧ ∃ k, e.constructor? = some k ∧ payload = .walker k) ∨
      (kind.isKnown = false ∧ payload = .uninterpreted e) := by
  unfold payload? at hp
  split at hp
  · rename_i hknown
    obtain ⟨k, hk, rfl⟩ := Option.map_eq_some_iff.mp hp
    exact .inl ⟨hknown, k, hk, rfl⟩
  · rename_i hknown
    cases policy with
    | passThrough =>
      cases hp
      exact .inr ⟨Bool.eq_false_iff.mpr hknown, rfl⟩
    | reject => cases hp

/-- The verdict on an export, where it is accepted. -/
theorem judge_eq_accepted {policy : UnknownKindPolicy} {module : String} {args : Option Json}
    {entry : String × Export κ} {x : Descriptor κ}
    (hx : (judge policy module args entry).descriptor? = some x) :
    ∃ tag payload, entry.2.kindTag? = some tag ∧
      payload? policy (Kind.ofTag tag) entry.2 = some payload ∧
      x = ⟨Descriptor.nameOf module entry.1, args, Kind.ofTag tag, payload, .empty⟩ := by
  rcases htag : entry.2.kindTag? with _ | tag
  · simp [judge, htag, Verdict.descriptor?] at hx
  rcases hp : payload? policy (Kind.ofTag tag) entry.2 with _ | payload
  · simp only [judge, htag, hp] at hx
    split at hx <;> cases hx
  · simp only [judge, htag, hp, Verdict.descriptor?, Option.some.injEq] at hx
    exact ⟨tag, payload, rfl, hp, hx.symm⟩

/-- An export that is accepted is described. -/
theorem describes_of_judge {policy : UnknownKindPolicy} {module : String} {args : Option Json}
    {entry : String × Export κ} {x : Descriptor κ}
    (hx : (judge policy module args entry).descriptor? = some x) :
    x.Describes module args entry := by
  obtain ⟨tag, payload, htag, hp, rfl⟩ := judge_eq_accepted hx
  have hnonempty : entry.2 ≠ .empty := by
    intro he
    rw [he] at htag
    cases htag
  have hkind : ∃ t, entry.2.kindTag? = some t ∧ Kind.ofTag tag = Kind.ofTag t := ⟨tag, htag, rfl⟩
  rcases payload?_eq_some hp with ⟨hknown, k, hk, rfl⟩ | ⟨hknown, rfl⟩
  · refine ⟨rfl, rfl, hnonempty, hkind, ?_, ?_, ?_, rfl⟩
    · exact iff_of_true ⟨k, rfl⟩ ((Kind.isKnown_iff _).mp hknown)
    · rintro k' ⟨⟩
      exact hk
    · rintro e ⟨⟩
  · refine ⟨rfl, rfl, hnonempty, hkind, ?_, ?_, ?_, rfl⟩
    · refine iff_of_false ?_ fun h => ?_
      · rintro ⟨k, ⟨⟩⟩
      · rw [(Kind.isKnown_iff _).mpr h] at hknown
        cases hknown
    · rintro k ⟨⟩
    · rintro e ⟨⟩
      rfl

/-- The exports of modules, each with its module, in order. -/
def candidates (modules : List (LoadedModule κ)) : List (LoadedModule κ × String × Export κ) :=
  modules.flatMap fun m => m.exports.entries.map fun entry => (m, entry)

/-- What is accepted of modules comes from some of their exports, one for each descriptor and in the
same order. -/
theorem exists_origins (policy : UnknownKindPolicy) (args? : String → Option Json)
    (modules : List (LoadedModule κ)) :
    ∃ origins, origins.Sublist (candidates modules) ∧
      List.Forall₂ (fun x origin => x.Describes origin.1.name (args? origin.1.name) origin.2)
        (modules.flatMap fun m => accepted policy m.name (args? m.name) m.exports.entries)
        origins := by
  have hflat : (modules.flatMap fun m => accepted policy m.name (args? m.name) m.exports.entries) =
      (candidates modules).filterMap fun origin =>
        (judge policy origin.1.name (args? origin.1.name) origin.2).descriptor? := by
    rw [candidates, List.filterMap_flatMap]
    congr 1
    funext m
    rw [List.filterMap_map]
    rfl
  rw [hflat]
  -- export by export: those that are not accepted are left out
  induction candidates modules with
  | nil => exact ⟨[], .slnil, .nil⟩
  | cons origin rest ih =>
    obtain ⟨origins, hsub, hdescribes⟩ := ih
    rw [List.filterMap_cons]
    split
    · exact ⟨origins, hsub.cons origin, hdescribes⟩
    · rename_i x hx
      exact ⟨origin :: origins, hsub.cons_cons origin, .cons (describes_of_judge hx) hdescribes⟩

end Admission

/-! ### Walkers -/

section Walkers

variable {T H P C ω τ : Type}

/-- A context is made for a descriptor: it has the services and the argument of the descriptor, and
the type checker for extensions of the semantic kind alone. -/
structure Context.MadeFor (c : Context T H P C) (x : Descriptor κ) (services : Services T H P C) :
    Prop where
  typeSystem : c.typeSystem = services.typeSystem
  host : c.host = services.host
  program : c.program = services.program
  args : c.args = x.args
  checker : c.checker = if x.kind = .semantic then some services.checker else none

namespace Descriptor

/-- Known kinds have contexts. -/
theorem exists_madeFor {x : Descriptor κ} (hx : x.kind.isKnown = true)
    (services : Services T H P C) :
    ∃ c, x.context? services = some c ∧ c.MadeFor x services := by
  rcases hkind : x.kind with _ | _ | tag
  · refine ⟨.syntactic x.args services, by simp [context?, hkind], rfl, rfl, rfl, rfl, ?_⟩
    simp [Context.syntactic, hkind]
  · refine ⟨.semantic x.args services, by simp [context?, hkind], rfl, rfl, rfl, rfl, ?_⟩
    simp [Context.semantic, hkind]
  · simp [hkind, Kind.isKnown] at hx

end Descriptor

end Walkers

/-- What comes of asking for a walker of a descriptor that is made of an export. For a known kind
the constructor of the export is used once, in a context that is made for the descriptor, and its
walker is what is returned; for any other kind nothing is used and nothing returned. -/
structure Descriptor.Constructs (x : Descriptor κ) (e : Export κ) : Prop where
  reachable : ∀ k tag, x.payload = .walker k → x.kind ≠ .custom tag
  known : x.kind.isKnown = true → ∃ k, e.constructor? = some k ∧
    ∀ {T H P C ω τ : Type} (construct : κ → Context T H P C → Call τ ω)
      (services : Services T H P C), ∃ c : Context T H P C, c.MadeFor x services ∧
        ∀ state uses, x.instantiate (noted construct) services (state, uses) =
          ((construct k c state).1.map some, ((construct k c state).2, uses ++ [(k, c)]))
  custom : x.kind.isKnown = false → ∀ {T H P C ω τ : Type}
    (construct : κ → Context T H P C → Call τ ω) (services : Services T H P C) (state uses),
      x.instantiate (noted construct) services (state, uses) = (.ok none, (state, uses))
  returned : ∀ {T H P C ω : Type} (construct : κ → Context T H P C → ω)
    (services : Services T H P C),
      (x.instantiate? construct services).isSome = true ↔ x.kind = .syntactic ∨ x.kind = .semantic

theorem Descriptor.Describes.constructs {x : Descriptor κ} {module : String} {args : Option Json}
    {entry : String × Export κ} (hx : x.Describes module args entry) : x.Constructs entry.2 where
  reachable k tag hk hkind := by
    rcases hx.walker.mp ⟨k, hk⟩ with h | h
    · rw [hkind] at h
      cases h
    · rw [hkind] at h
      cases h
  known hknown := by
    obtain ⟨k, hk⟩ := hx.walker.mpr ((Kind.isKnown_iff _).mp hknown)
    refine ⟨k, hx.constructor k hk, fun construct services => ?_⟩
    obtain ⟨c, hc, hmade⟩ := exists_madeFor hknown services
    refine ⟨c, hmade, fun state uses => ?_⟩
    simp [instantiate, hk, Payload.constructor?, hc, noted]
  custom hcustom := by
    intro T H P C ω τ construct services state uses
    have hk : x.payload.constructor? = none := by
      rcases hp : x.payload with k | e
      · rw [(Kind.isKnown_iff _).mpr (hx.walker.mp ⟨k, hp⟩)] at hcustom
        cases hcustom
      · rfl
    simp [instantiate, hk, Host.answer]
  returned construct services := by
    rw [← hx.walker]
    constructor
    · intro h
      rcases hp : x.payload with k | e
      · exact ⟨k, rfl⟩
      · simp [instantiate?, hp, Payload.constructor?] at h
    · rintro ⟨k, hk⟩
      have hknown := (Kind.isKnown_iff _).mpr (hx.walker.mp ⟨k, hk⟩)
      obtain ⟨c, hc, -⟩ := exists_madeFor hknown services
      simp [instantiate?, hk, Payload.constructor?, hc]

/-! ### The descriptors of an attempt -/

/-- **Descriptors are sound.** When an attempt returns, its descriptors come from exports of its
modules, each from one of its own, which it describes. Asked for a walker, a descriptor of a known
kind uses the constructor of its export once, in a context that is made for it, and no other
descriptor uses any. -/
theorem Discovery.descriptors_of_attempt {setting : ExtensionSetting} {policy : UnknownKindPolicy}
    {h : Host κ σ} {s : σ} {d : Discovery κ}
    (hd : (attempt setting policy h s).1.result = .ok d) :
    ∃ ds origins, d.groups.descriptors.Perm ds ∧
      origins.Sublist (Admission.candidates (attempt setting policy h s).1.phase.modules) ∧
      List.Forall₂ (fun x origin =>
        x.Describes origin.1.name (setting.args? origin.1.name) origin.2) ds origins ∧
      ∀ x ∈ d.groups.descriptors, ∃ origin ∈ origins,
        x.Describes origin.1.name (setting.args? origin.1.name) origin.2 ∧
          x.Constructs origin.2.2 := by
  obtain ⟨hi, rfl⟩ := Attempt.result_eq_ok_iff.mp hd
  obtain ⟨origins, hsub, hdescribes⟩ := Admission.exists_origins policy
    (fun name => setting.args? name) (attempt setting policy h s).1.phase.modules
  have hperm : (attempt setting policy h s).1.found.groups.descriptors.Perm _ :=
    Groups.perm_descriptors_ofList (attempt setting policy h s).1.descriptors
  rw [descriptors_attempt hi] at hperm
  refine ⟨_, origins, hperm, hsub, hdescribes, fun x hx => ?_⟩
  obtain ⟨i, hi, rfl⟩ := List.mem_iff_getElem.mp (hperm.mem_iff.mp hx)
  have hlen := hdescribes.length_eq
  have hget := List.forall₂_iff_get.mp hdescribes
  have hdescribed := hget.2 i hi (hlen ▸ hi)
  exact ⟨origins[i], List.getElem_mem _, hdescribed, hdescribed.constructs⟩

/-- Constructors of both known kinds and of another one, beside exports that have none. -/
def walkersTable : HostTable Nat where
  modules := [⟨"rules", ⟨"/ext/rules"⟩, none, none, .exports ⟨[
    ("default", .constructible (some (.string "semantic-lint")) 1),
    ("nothing", .empty),
    ("style", .constructible (some (.string "formatter")) 2),
    ("width", .data (some (.string "formatter")) (.bool true)),
    ("shape", .constructible (some (.string "syntactic-lint")) 3)]⟩⟩]
  directory := none
  loader := .present

theorem descriptors_of_walkersTable :
    ∃ d, (Discovery.attempt (.map [("rules", .null)]) .passThrough walkersTable.host 0).1.result =
        .ok d ∧
      d.groups.descriptors.map Descriptor.payload = [
        .uninterpreted (.constructible (some (.string "formatter")) 2),
        .uninterpreted (.data (some (.string "formatter")) (.bool true)), .walker 1, .walker 3] ∧
      ∀ x ∈ d.groups.descriptors, ∃ e, x.args = some .null ∧ x.Constructs e ∧
        ∀ k, x.payload = .walker k → e.constructor? = some k := by
  have hd : (Discovery.attempt (.map [("rules", .null)]) .passThrough walkersTable.host
      0).1.result = .ok _ := rfl
  obtain ⟨ds, origins, -, hsub, -, hsound⟩ := Discovery.descriptors_of_attempt hd
  refine ⟨_, hd, rfl, fun x hx => ?_⟩
  obtain ⟨origin, horigin, hdescribes, hconstructs⟩ := hsound x hx
  refine ⟨origin.2.2, ?_, hconstructs, hdescribes.constructor⟩
  -- the table has one module, which is the origin of every descriptor
  have hmem := hsub.subset horigin
  obtain ⟨m, hm, hentry⟩ := List.mem_flatMap.mp hmem
  obtain ⟨entry, -, rfl⟩ := List.mem_map.mp hentry
  obtain rfl : m = _ := List.mem_singleton.mp hm
  exact hdescribes.args

end LintDiscovery
