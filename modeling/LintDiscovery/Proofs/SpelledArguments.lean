/-
Names and arguments as they are spelled.

A text may give a key of an object several times, and the last of the values counts.
`Spelling.field?` finds it in the text, and `Spelling.rel_field?` says that it stands for what the
value has under this key. Extensions that name one of them once are an array with one item of this
name, or an object with the key, since repeating a key does not repeat the name.

* `Spelling.asString?_of_value?`, `rel_field?` — strings and fields of what a spelling stands for;
* `Spelling.NamesOnce` — spelled extensions that name one of them once, with the argument they give;
* `Config.count_eq_one_iff`, `Config.rel_args?` — the names and the argument in the configuration.
-/
import LintDiscovery.Proofs.ArgumentThreading
import Mathlib.Data.List.Count
import Mathlib.Data.List.Nodup

namespace LintDiscovery

open Json (Blanks Lead Spelling)

namespace Json.Spelling

/-! ### Arrays and objects -/

theorem exists_items_of_value? {levels : Nat} {items : List (Blanks × Spelling × Blanks)}
    {inner : Blanks} {v : Json} (h : (array items inner).value? levels = some v) :
    ∃ vs, itemValues? (levels - 1) items = some vs ∧ v = .array vs := by
  rw [value?] at h
  split at h
  · cases h
  · obtain ⟨vs, hvs, rfl⟩ := Option.map_eq_some_iff.mp h
    exact ⟨vs, hvs, rfl⟩

theorem exists_pairs_of_value? {levels : Nat} {fields : List (Lead × Spelling × Blanks)}
    {inner : Blanks} {v : Json} (h : (object fields inner).value? levels = some v) :
    ∃ pairs, fieldValues? (levels - 1) fields = some pairs ∧ v = .object (merged pairs) := by
  rw [value?] at h
  split at h
  · cases h
  · obtain ⟨pairs, hpairs, rfl⟩ := Option.map_eq_some_iff.mp h
    exact ⟨pairs, hpairs, rfl⟩

theorem fieldValues?_append (levels : Nat) (front back : List (Lead × Spelling × Blanks)) :
    fieldValues? levels (front ++ back) =
      (fieldValues? levels front).bind fun pairs =>
        (fieldValues? levels back).map (pairs ++ ·) := by
  induction front with
  | nil => simp [fieldValues?]
  | cons field front ih =>
    obtain ⟨lead, t, behind⟩ := field
    rw [List.cons_append, fieldValues?, fieldValues?, ih]
    cases lead.key.content? <;> cases value? levels t <;> cases fieldValues? levels front <;>
      cases fieldValues? levels back <;> simp

theorem exists_of_fieldValues?_concat {levels : Nat} {fields : List (Lead × Spelling × Blanks)}
    {field : Lead × Spelling × Blanks} {pairs : List (String × Json)}
    (h : fieldValues? levels (fields ++ [field]) = some pairs) :
    ∃ front key v, fieldValues? levels fields = some front ∧ field.1.key.content? = some key ∧
      value? levels field.2.1 = some v ∧ pairs = front ++ [(key, v)] := by
  rw [fieldValues?_append] at h
  obtain ⟨front, hfront, h⟩ := Option.bind_eq_some_iff.mp h
  obtain ⟨back, hback, rfl⟩ := Option.map_eq_some_iff.mp h
  obtain ⟨lead, t, behind⟩ := field
  obtain ⟨key, hkey, hback⟩ := Option.bind_eq_some_iff.mp hback
  obtain ⟨v, hv, hback⟩ := Option.bind_eq_some_iff.mp hback
  cases hback
  exact ⟨front, key, v, hfront, hkey, hv, rfl⟩

/-! ### Strings and fields -/

/-- The string that a spelling stands for, if it is one. -/
def content? : Spelling → Option String
  | .string q => q.content?
  | _ => none

/-- What the last field of a key holds. -/
def lastField? (key : String) (fields : List (Lead × Spelling × Blanks)) : Option Spelling :=
  (fields.reverse.find? fun field => field.1.key.content? = some key).map fun field => field.2.1

/-- What an object holds under a key, where the last field of the key counts. Other values have no
fields. -/
def field? (key : String) : Spelling → Option Spelling
  | .object fields _ => lastField? key fields
  | _ => none

theorem lastField?_concat (key : String) (fields : List (Lead × Spelling × Blanks))
    (field : Lead × Spelling × Blanks) :
    lastField? key (fields ++ [field]) =
      if field.1.key.content? = some key then some field.2.1 else lastField? key fields := by
  rw [lastField?, List.reverse_append, List.reverse_singleton, List.singleton_append,
    List.find?_cons]
  by_cases h : field.1.key.content? = some key
  · simp [h]
  · simp [h, lastField?]

/-- The last field of a key stands for what remains under this key when all are set in turn. -/
theorem rel_lastField? (key : String) {levels : Nat} {fields : List (Lead × Spelling × Blanks)}
    {pairs : List (String × Json)} (h : fieldValues? levels fields = some pairs) :
    Option.Rel (fun u w => u.value? levels = some w) (lastField? key fields)
      (find? key (merged pairs)) := by
  induction fields using List.reverseRecOn generalizing pairs with
  | nil =>
    cases h
    exact .none
  | append_singleton fields field ih =>
    obtain ⟨front, other, v, hfront, hother, hv, rfl⟩ := exists_of_fieldValues?_concat h
    rw [merged_concat, lastField?_concat, hother]
    by_cases hkey : other = key
    · rw [hkey, find?_insert_self, if_pos rfl]
      exact .some hv
    · rw [find?_insert_of_ne hkey, if_neg (by simpa using hkey)]
      exact ih hfront

/-- What a spelling has under a key stands for what its value has there. -/
theorem rel_field? {levels : Nat} {t : Spelling} {v : Json} (h : t.value? levels = some v)
    (key : String) :
    Option.Rel (fun u w => u.value? (levels - 1) = some w) (t.field? key) (v.get? key) := by
  cases t with
  | null => cases h; exact .none
  | bool b => cases h; exact .none
  | number n =>
    obtain ⟨n, -, rfl⟩ := Option.map_eq_some_iff.mp h
    exact .none
  | string q =>
    obtain ⟨s, -, rfl⟩ := Option.map_eq_some_iff.mp h
    exact .none
  | array items inner =>
    obtain ⟨vs, -, rfl⟩ := exists_items_of_value? h
    exact .none
  | object fields inner =>
    obtain ⟨pairs, hpairs, rfl⟩ := exists_pairs_of_value? h
    exact rel_lastField? key hpairs

theorem asString?_of_value? {levels : Nat} {t : Spelling} {v : Json}
    (h : t.value? levels = some v) : v.asString? = t.content? := by
  cases t with
  | null => cases h; rfl
  | bool b => cases h; rfl
  | number n =>
    obtain ⟨n, -, rfl⟩ := Option.map_eq_some_iff.mp h
    rfl
  | string q =>
    obtain ⟨s, hs, rfl⟩ := Option.map_eq_some_iff.mp h
    exact hs.symm
  | array items inner =>
    obtain ⟨vs, -, rfl⟩ := exists_items_of_value? h
    rfl
  | object fields inner =>
    obtain ⟨pairs, -, rfl⟩ := exists_pairs_of_value? h
    rfl

theorem map_content?_of_itemValues? {levels : Nat} {items : List (Blanks × Spelling × Blanks)}
    {vs : List Json} (h : itemValues? levels items = some vs) :
    items.map (fun item => item.2.1.content?) = vs.map asString? := by
  induction items generalizing vs with
  | nil =>
    cases h
    rfl
  | cons item items ih =>
    obtain ⟨before, t, behind⟩ := item
    obtain ⟨v, hv, h⟩ := Option.bind_eq_some_iff.mp h
    obtain ⟨rest, hrest, rfl⟩ := Option.map_eq_some_iff.mp h
    rw [List.map_cons, List.map_cons, ih hrest, asString?_of_value? hv]

/-- Extensions that name one of them once, and the argument that they give it: an array that has
the name once among its items, or an object that has it as a key, of which the last field counts. -/
inductive NamesOnce (name : String) : Spelling → Option Spelling → Prop
  | listed {items : List (Blanks × Spelling × Blanks)} {inner : Blanks}
      (hitems : (items.map fun item => item.2.1.content?).count (some name) = 1) :
      NamesOnce name (.array items inner) none
  | mapped {fields : List (Lead × Spelling × Blanks)} {inner : Blanks} {t : Spelling}
      (hlast : lastField? name fields = some t) : NamesOnce name (.object fields inner) (some t)

end Json.Spelling

/-! ### Extensions -/

namespace Json

theorem nodup_keys_merged (pairs : List (String × Json)) :
    ((merged pairs).map Prod.fst).Nodup := by
  induction pairs using List.reverseRecOn with
  | nil => exact List.nodup_nil
  | append_singleton pairs pair ih =>
    rw [merged_concat]
    exact nodup_keys_insert ih pair.1 pair.2

end Json

namespace ExtensionSetting

/-- What spelled extensions are read as: names where they are an array, and names with arguments
where they are an object. -/
theorem exists_of_ofSpelling? {t : Spelling} {s : ExtensionSetting} (h : ofSpelling? t = some s) :
    (∃ items inner names, t = .array items inner ∧ s = .list names ∧
      items.map (fun item => item.2.1.content?) = names.map some) ∨
    ∃ fields inner pairs, t = .object fields inner ∧ s = .map (Json.merged pairs) ∧
      Spelling.fieldValues? (Config.innerLevels - 1) fields = some pairs := by
  obtain ⟨v, hv, hs⟩ := Option.bind_eq_some_iff.mp h
  cases t with
  | null => cases hv; cases hs
  | bool b => cases hv; cases hs
  | number n =>
    obtain ⟨n, -, rfl⟩ := Option.map_eq_some_iff.mp hv
    cases hs
  | string q =>
    obtain ⟨text, -, rfl⟩ := Option.map_eq_some_iff.mp hv
    cases hs
  | array items inner =>
    obtain ⟨vs, hvs, rfl⟩ := Spelling.exists_items_of_value? hv
    obtain ⟨names, hnames, rfl⟩ := Option.map_eq_some_iff.mp hs
    refine .inl ⟨items, inner, names, rfl, rfl, ?_⟩
    rw [Spelling.map_content?_of_itemValues? hvs, items_of_mapM_asString? hnames, List.map_map]
    rfl
  | object fields inner =>
    obtain ⟨pairs, hpairs, rfl⟩ := Spelling.exists_pairs_of_value? hv
    cases hs
    exact .inr ⟨fields, inner, pairs, rfl, rfl, hpairs⟩

/-- Extensions name one of them once exactly where they are spelled so. -/
theorem count_eq_one_iff {t : Spelling} {s : ExtensionSetting} (h : ofSpelling? t = some s)
    (name : String) : s.names.count name = 1 ↔ ∃ given, t.NamesOnce name given := by
  rcases exists_of_ofSpelling? h with ⟨items, inner, names, rfl, rfl, hitems⟩ |
    ⟨fields, inner, pairs, rfl, rfl, hpairs⟩
  · have hcount : (items.map fun item => item.2.1.content?).count (some name) =
        (list names).names.count name := by
      rw [hitems, List.count_map_of_injective names some fun _ _ => Option.some.inj]
      rfl
    constructor
    · intro hone
      exact ⟨none, .listed (hcount.trans hone)⟩
    · rintro ⟨_, ⟨hone⟩⟩
      exact hcount.symm.trans hone
  · -- a key is a name once, so it is enough to know that there is a field of it
    have hkey : (map (Json.merged pairs)).names.count name = 1 ↔
        (Json.find? name (Json.merged pairs)).isSome := by
      rw [Json.isSome_find?_iff]
      constructor
      · intro hone
        exact List.count_pos_iff.mp (Nat.lt_of_sub_eq_succ hone)
      · exact List.count_eq_one_of_mem (Json.nodup_keys_merged pairs)
    have hrel := Spelling.rel_lastField? name hpairs
    rw [hkey]
    generalize Json.find? name (Json.merged pairs) = found at hrel
    constructor
    · intro hsome
      rcases hlast : Spelling.lastField? name fields with _ | u
      · rw [hlast] at hrel
        cases hrel
        cases hsome
      · exact ⟨some u, .mapped hlast⟩
    · rintro ⟨given, hnames⟩
      cases hnames with
      | mapped hlast =>
        rw [hlast] at hrel
        cases hrel
        rfl

/-- What such extensions give as an argument stands for the one of the setting. -/
theorem rel_args? {t : Spelling} {s : ExtensionSetting} (h : ofSpelling? t = some s)
    {name : String} {given : Option Spelling} (hnames : t.NamesOnce name given) :
    Option.Rel (fun u w => u.value? (Config.innerLevels - 1) = some w) given (s.args? name) := by
  rcases exists_of_ofSpelling? h with ⟨items, inner, names, rfl, rfl, -⟩ |
    ⟨fields, inner, pairs, rfl, rfl, hpairs⟩
  · cases hnames
    exact .none
  · have hrel := Spelling.rel_lastField? name hpairs
    cases hnames with
    | mapped hlast =>
      rw [hlast] at hrel
      exact hrel

end ExtensionSetting

namespace Config

variable {doc : Document} {c : Config}

theorem ofSpelling?_extensions (hc : ofText doc.text = .ok c) {t : Spelling}
    (ht : (.extensions, t) ∈ doc.settings) :
    ExtensionSetting.ofSpelling? t = some c.extensions :=
  ((ofText_text_iff doc c).mp hc).2.2.found _ _ ht

/-- A configuration names an extension once exactly where its text does. -/
theorem count_eq_one_iff (hc : ofText doc.text = .ok c) (name : String) :
    c.extensions.names.count name = 1 ↔
      ∃ t given, (.extensions, t) ∈ doc.settings ∧ t.NamesOnce name given := by
  constructor
  · intro hone
    by_cases hgiven : Setting.extensions ∈ doc.settings.map Prod.fst
    · obtain ⟨⟨_, t⟩, ht, rfl⟩ := List.mem_map.mp hgiven
      obtain ⟨given, hnames⟩ :=
        (ExtensionSetting.count_eq_one_iff (ofSpelling?_extensions hc ht) name).mp hone
      exact ⟨t, given, ht, hnames⟩
    · -- without extensions there are no names
      have hnone : c.extensions = .list [] :=
        ((ofText_text_iff doc c).mp hc).2.2.missing _ hgiven
      rw [hnone] at hone
      cases hone
  · rintro ⟨t, given, ht, hnames⟩
    exact (ExtensionSetting.count_eq_one_iff (ofSpelling?_extensions hc ht) name).mpr
      ⟨given, hnames⟩

/-- The argument that a text gives a name stands for the one of the configuration. -/
theorem rel_args? (hc : ofText doc.text = .ok c) {t : Spelling}
    (ht : (.extensions, t) ∈ doc.settings) {name : String} {given : Option Spelling}
    (hnames : t.NamesOnce name given) :
    Option.Rel (fun u w => u.value? (innerLevels - 1) = some w) given (c.extensions.args? name) :=
  ExtensionSetting.rel_args? (ofSpelling?_extensions hc ht) hnames

end Config

end LintDiscovery
