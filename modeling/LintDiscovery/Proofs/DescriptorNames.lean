/-
Names tell exports apart.

The name of an extension is that of its module, with the key of the export in brackets behind it
unless the export is the default one. Where the name of the module has no opening bracket, the first
one in the name of the extension comes right behind it, and what stands between that bracket and the
last character is the key, whatever brackets the key has itself. Read back like this, names lead to
one export only. Within a module nothing has to be known of the module's name.

* `Descriptor.originOf`, `originOf_nameOf` — a name read back as module and key;
* `Descriptor.key_eq_of_nameOf_eq` — keys within a module;
* `Descriptor.Describes.name_eq_iff` — descriptors and their exports;
* `Descriptor.names_identify_exports` — and the names in a discovery.
-/
import LintDiscovery.Proofs.DescriptorSoundness
import Mathlib.Data.List.TakeWhile

namespace LintDiscovery

namespace Descriptor

/-- The module and the key that a name is read back as: what stands before the first opening
bracket, and what stands between it and the last character. Without a bracket the key is that of
default exports. -/
def originOf (name : String) : String × String :=
  match name.toList.dropWhile (· ≠ '[') with
  | [] => (name, ExportTable.defaultKey)
  | _ :: rest => (String.ofList (name.toList.takeWhile (· ≠ '[')), String.ofList rest.dropLast)

theorem nameOf_default (module : String) : nameOf module ExportTable.defaultKey = module :=
  if_pos rfl

theorem toList_nameOf {key : String} (h : key ≠ ExportTable.defaultKey) (module : String) :
    (nameOf module key).toList = module.toList ++ '[' :: (key.toList ++ [']']) := by
  rw [nameOf, if_neg h]
  simp

/-- A name is read back as what it was made of, if there is no bracket in the name of the module. -/
theorem originOf_nameOf {module : String} (h : '[' ∉ module.toList) (key : String) :
    originOf (nameOf module key) = (module, key) := by
  have hplain : ∀ c ∈ module.toList, decide (c ≠ '[') = true := fun c hc =>
    decide_eq_true fun heq => h (heq ▸ hc)
  by_cases hkey : key = ExportTable.defaultKey
  · rw [hkey, nameOf_default, originOf, List.dropWhile_eq_nil_iff.mpr hplain]
  · rw [originOf, toList_nameOf hkey, List.dropWhile_append_of_pos hplain,
      List.takeWhile_append_of_pos hplain]
    simp

/-- Within a module the name gives the key away, whatever the module is called. -/
theorem key_eq_of_nameOf_eq {module k l : String} (h : nameOf module k = nameOf module l) :
    k = l := by
  have hlist : (nameOf module k).toList = (nameOf module l).toList := congrArg String.toList h
  by_cases hk : k = ExportTable.defaultKey
  · by_cases hl : l = ExportTable.defaultKey
    · rw [hk, hl]
    · -- brackets make a name longer than that of the module
      rw [hk, nameOf_default, toList_nameOf hl, List.self_eq_append_right] at hlist
      cases hlist
  · by_cases hl : l = ExportTable.defaultKey
    · rw [hl, nameOf_default, toList_nameOf hk, List.append_right_eq_self] at hlist
      cases hlist
    · rw [toList_nameOf hk, toList_nameOf hl] at hlist
      have hkeys := (List.cons.inj (List.append_cancel_left hlist)).2
      exact String.toList_inj.mp (List.append_cancel_right hkeys)

/-- Names of exports are told apart where neither module has a bracket in its name, or where there
is but one module. -/
theorem nameOf_eq_iff {m n : String} (h : ('[' ∉ m.toList ∧ '[' ∉ n.toList) ∨ m = n)
    (k l : String) : nameOf m k = nameOf n l ↔ m = n ∧ k = l := by
  constructor
  · intro heq
    rcases h with ⟨hm, hn⟩ | rfl
    · have hread : (m, k) = (n, l) := by
        rw [← originOf_nameOf hm k, heq, originOf_nameOf hn l]
      exact Prod.mk.inj hread
    · exact ⟨rfl, key_eq_of_nameOf_eq heq⟩
  · rintro ⟨rfl, rfl⟩
    rfl

theorem Describes.name_eq_iff {κ : Type} {x y : Descriptor κ} {m n : String}
    {args args' : Option Json} {e f : String × Export κ} (hx : x.Describes m args e)
    (hy : y.Describes n args' f) (h : ('[' ∉ m.toList ∧ '[' ∉ n.toList) ∨ m = n) :
    x.name = y.name ↔ m = n ∧ e.1 = f.1 := by
  rw [hx.name, hy.name, nameOf_eq_iff h]

end Descriptor

/-! ### The names in a discovery -/

/-- The descriptors of an attempt that returns, each with the export that it describes. -/
theorem Discovery.exists_described {κ σ : Type} {setting : ExtensionSetting}
    {policy : UnknownKindPolicy} {h : Host κ σ} {s : σ} {d : Discovery κ}
    (hd : (attempt setting policy h s).1.result = .ok d) :
    ∃ ds origins, d.groups.descriptors.Perm ds ∧
      origins.Sublist (Admission.candidates (attempt setting policy h s).1.phase.modules) ∧
      List.Forall₂ (fun x origin =>
        x.Describes origin.1.name (setting.args? origin.1.name) origin.2) ds origins := by
  obtain ⟨hi, rfl⟩ := Attempt.result_eq_ok_iff.mp hd
  obtain ⟨origins, hsub, hdescribes⟩ := Admission.exists_origins policy
    (fun name => setting.args? name) (attempt setting policy h s).1.phase.modules
  rw [← descriptors_attempt hi] at hdescribes
  exact ⟨_, origins, Groups.perm_descriptors_ofList _, hsub, hdescribes⟩

/-- **Names identify exports.** Where no module has an opening bracket in its name, two exports have
the same name exactly when they have the same key in the same module, and within one module this is
so in any case. The descriptors of an attempt that returns come from one export each, and those of
such modules share a name only where their exports do. -/
theorem Descriptor.names_identify_exports :
    (∀ m n k l : String, '[' ∉ m.toList → '[' ∉ n.toList →
      (nameOf m k = nameOf n l ↔ m = n ∧ k = l)) ∧
    (∀ m k l : String, nameOf m k = nameOf m l ↔ k = l) ∧
    ∀ {κ σ : Type} (setting : ExtensionSetting) (policy : UnknownKindPolicy) (h : Host κ σ) (s : σ)
      (d : Discovery κ), (Discovery.attempt setting policy h s).1.result = .ok d →
        ∃ ds origins, d.groups.descriptors.Perm ds ∧
          origins.Sublist
            (Admission.candidates (Discovery.attempt setting policy h s).1.phase.modules) ∧
          List.Forall₂ (fun x origin =>
            x.Describes origin.1.name (setting.args? origin.1.name) origin.2) ds origins ∧
          ∀ a ∈ ds.zip origins, ∀ b ∈ ds.zip origins,
            ('[' ∉ a.2.1.name.toList ∧ '[' ∉ b.2.1.name.toList) ∨ a.2.1.name = b.2.1.name →
              (a.1.name = b.1.name ↔ a.2.1.name = b.2.1.name ∧ a.2.2.1 = b.2.2.1) := by
  refine ⟨fun m n k l hm hn => nameOf_eq_iff (.inl ⟨hm, hn⟩) k l, fun m k l => ?_,
    fun setting policy h s d hd => ?_⟩
  · rw [nameOf_eq_iff (.inr rfl), and_iff_right rfl]
  · obtain ⟨ds, origins, hperm, hsub, hdescribes⟩ := Discovery.exists_described hd
    refine ⟨ds, origins, hperm, hsub, hdescribes, fun a ha b hb hplain => ?_⟩
    have hx := (List.forall₂_iff_zip.mp hdescribes).2 ha
    have hy := (List.forall₂_iff_zip.mp hdescribes).2 hb
    exact hx.name_eq_iff hy hplain

/-- A module whose keys have brackets, or nothing in them. -/
def bracketKeys : HostTable Unit where
  modules := [⟨"lint", ⟨"/ext/lint"⟩, none, none, .exports ⟨[
    ("", .constructible (some (.string "syntactic-lint")) ()),
    ("[]", .constructible (some (.string "semantic-lint")) ()),
    ("x][y", .data (some (.string "formatter")) .null),
    ("default", .constructible (some (.string "syntactic-lint")) ())]⟩⟩]
  directory := none
  loader := .present

theorem names_of_bracketKeys :
    '[' ∉ "lint".toList ∧ '[' ∉ "x".toList ∧
      Descriptor.nameOf "lint" "[x]" ≠ Descriptor.nameOf "x" "lint[x]" ∧
      Descriptor.nameOf "lint[]" "x" ≠ Descriptor.nameOf "lint[]" "[]" ∧
      ∃ d ds, ∃ origins : List (LoadedModule Unit × String × Export Unit),
        (Discovery.attempt (.list ["lint"]) .passThrough bracketKeys.host 0).1.result = .ok d ∧
        d.groups.descriptors.Perm ds ∧
        ∀ a ∈ ds.zip origins, ∀ b ∈ ds.zip origins, a.2.1.name = b.2.1.name →
          a.1.name = b.1.name → a.2.2.1 = b.2.2.1 := by
  obtain ⟨hacross, hwithin, hdiscovery⟩ := Descriptor.names_identify_exports
  have hlint : '[' ∉ "lint".toList := by decide
  have hx : '[' ∉ "x".toList := by decide
  obtain ⟨ds, origins, hperm, -, -, hnames⟩ :=
    hdiscovery (.list ["lint"]) .passThrough bracketKeys.host 0 _ rfl
  refine ⟨hlint, hx, fun h => ?_, fun h => ?_, _, ds, origins, rfl, hperm, ?_⟩
  · exact absurd ((hacross _ _ _ _ hlint hx).mp h).1 (by decide)
  · exact absurd ((hwithin _ _ _).mp h) (by decide)
  · intro a ha b hb hmodule hname
    exact ((hnames a ha b hb (.inr hmodule)).mp hname).2

/-- A bracket in the name of a module can be taken for that of a key. -/
example : Descriptor.nameOf "lint[x]" "default" = Descriptor.nameOf "lint" "x" := by
  decide

end LintDiscovery
