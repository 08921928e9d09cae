/-
A configuration depends on its settings only.

`Config.ofText_of_settings` compares texts that have the form of a configuration: the order of the
settings, the form of the text, and whatever fields it has beside them make no difference. A text
with a field whose key does not stand for a string has no such form, and `not_accepted_loneKey`
shows one: keys are read before they are compared with those of the settings.
-/
import Mathlib.Data.List.Nodup
import Mathlib.Tactic.Choose
import LintDiscovery.Proofs.Documents

namespace LintDiscovery

open Json (Blanks Lead Piece Quotation Spelling)

namespace Config

/-- The configuration with these values. -/
def ofValues (value : ∀ s : Setting, s.Value) : Config :=
  ⟨value .extensions, value .policy, value .dirs⟩

theorem get_ofValues (value : ∀ s : Setting, s.Value) (s : Setting) :
    (ofValues value).get s = value s := by
  cases s <;> rfl

theorem Holds.perm {given given' : List (Setting × Spelling)} {c : Config} (hc : Holds given c)
    (h : given'.Perm given) : Holds given' c :=
  ⟨fun s t ht => hc.found s t (h.mem_iff.mp ht),
    fun s hs => hc.missing s fun hs' => hs ((h.map Prod.fst).mem_iff.mpr hs')⟩

/-- Settings that are given once each, with acceptable values, are those of some configuration. -/
theorem exists_holds {given : List (Setting × Spelling)} (once : (given.map Prod.fst).Nodup)
    (accepted : ∀ s t, (s, t) ∈ given → (s.ofSpelling? t).isSome) : ∃ c, Holds given c := by
  have hvalue : ∀ s : Setting, ∃ v : s.Value, (∀ t, (s, t) ∈ given → s.ofSpelling? t = some v) ∧
      (s ∉ given.map Prod.fst → v = Config.default.get s) := by
    intro s
    by_cases hs : s ∈ given.map Prod.fst
    · obtain ⟨⟨_, t⟩, ht, rfl⟩ := List.mem_map.mp hs
      obtain ⟨v, hv⟩ := Option.isSome_iff_exists.mp (accepted _ t ht)
      refine ⟨v, fun t' ht' => ?_, fun hs' => absurd hs hs'⟩
      -- no other spelling is given for the same setting
      have hpair := List.inj_on_of_nodup_map once ht' ht rfl
      rw [(Prod.mk.inj hpair).2]
      exact hv
    · exact ⟨_, fun t ht => absurd (List.mem_map.mpr ⟨(s, t), ht, rfl⟩) hs, fun _ => rfl⟩
  choose value hfound hmissing using hvalue
  exact ⟨ofValues value, fun s t ht => by rw [get_ofValues]; exact hfound s t ht,
    fun s hs => by rw [get_ofValues]; exact hmissing s hs⟩

/-- **A configuration depends on its settings only.** A text that has the form of a configuration is
one exactly where no setting is given twice and each has an acceptable value. The configuration
holds these values and the defaults of the settings that are missing, and every other text of such
a form that gives the same settings, in whatever order, is the same configuration. A text that
gives a setting twice is none. -/
theorem ofText_of_settings (d : Document) (hform : d.HasForm) :
    ((∃ c, ofText d.text = .ok c) ↔
      (d.settings.map Prod.fst).Nodup ∧ ∀ s t, (s, t) ∈ d.settings → (s.ofSpelling? t).isSome) ∧
    (∀ c, ofText d.text = .ok c → Holds d.settings c ∧
      ∀ d' : Document, d'.HasForm → d'.settings.Perm d.settings → ofText d'.text = .ok c) ∧
    ∀ d' : Document, ¬(d'.settings.map Prod.fst).Nodup →
      ∃ fault, ofText d'.text = .error (.invalid fault) := by
  refine ⟨⟨?_, ?_⟩, ?_, ?_⟩
  · rintro ⟨c, hc⟩
    obtain ⟨-, once, holds⟩ := (ofText_text_iff d c).mp hc
    refine ⟨once, fun s t ht => ?_⟩
    rw [holds.found s t ht]
    rfl
  · rintro ⟨once, accepted⟩
    obtain ⟨c, holds⟩ := exists_holds once accepted
    exact ⟨c, (ofText_text_iff d c).mpr ⟨hform, once, holds⟩⟩
  · intro c hc
    obtain ⟨-, once, holds⟩ := (ofText_text_iff d c).mp hc
    refine ⟨holds, fun d' hform' hperm => ?_⟩
    have once' : (d'.settings.map Prod.fst).Nodup := (hperm.map Prod.fst).nodup_iff.mpr once
    exact (ofText_text_iff d' c).mpr ⟨hform', once', holds.perm hperm⟩
  · intro d' htwice
    cases hread : parse d'.text with
    | error fault => exact ⟨fault, by rw [ofText, hread]; rfl⟩
    | ok c =>
      have hc : ofText d'.text = .ok c := by
        rw [ofText, hread]
        rfl
      exact absurd ((ofText_text_iff d' c).mp hc).2.1 htwice

/-- An object with two settings, a field of another key between them and one whose key differs from
that of a setting in its case. -/
def mixedObject : Document :=
  ⟨.none, .object [
    Spelling.plainField "unknownKindPolicy" (.string (.plain "reject")),
    Spelling.plainField "note" (.array [Spelling.plainItem .null] .none),
    Spelling.plainField "extensions" (.array [] .none),
    Spelling.plainField "Extensions" .null] .none, .none⟩

/-- The same settings as an array. -/
def shortArray : Document :=
  ⟨.none, .array [
    Spelling.plainItem (.array [] .none), Spelling.plainItem (.string (.plain "reject"))] .none,
    .none⟩

theorem perm_settings_shortArray : shortArray.settings.Perm mixedObject.settings :=
  List.Perm.swap _ _ _

theorem ofText_of_settings_mixedObject :
    mixedObject.HasForm ∧ shortArray.HasForm ∧ shortArray.settings.Perm mixedObject.settings ∧
      ofText mixedObject.text = .ok ⟨.list [], .reject, []⟩ ∧
      ofText shortArray.text = .ok ⟨.list [], .reject, []⟩ := by
  have hform : mixedObject.HasForm := by
    unfold Document.HasForm mixedObject KeysDenote
    decide
  have hform' : shortArray.HasForm := by
    show 2 ≤ 3
    decide
  have hread : ofText mixedObject.text = .ok ⟨.list [], .reject, []⟩ := by
    refine eq_ok_of_toOption ?_
    decide +kernel
  have hsame := ((ofText_of_settings mixedObject hform).2.1 _ hread).2 shortArray hform'
    perm_settings_shortArray
  exact ⟨hform, hform', perm_settings_shortArray, hread, hsame⟩

/-- An object with one field, whose key is half of a pair of code units. -/
def loneKey : Document :=
  ⟨.none, .object [
    (⟨.none, ⟨[.codeUnit 'd' '8' '0' '0' 0xd800 rfl]⟩, .none, .none⟩, .number ⟨false,
      ⟨['1'], by simp [Json.isDigit], by simp⟩, none, none, by simp⟩, .none)] .none, .none⟩

theorem not_accepted_loneKey :
    loneKey.text = "\x7b\"\\ud800\":1\x7d" ∧
    ¬∀ d : Document, (∃ fields inner, d.value = .object fields inner) →
      (d.settings.map Prod.fst).Nodup → (∀ s t, (s, t) ∈ d.settings → (s.ofSpelling? t).isSome) →
      ∃ c, ofText d.text = .ok c := by
  refine ⟨rfl, fun h => ?_⟩
  have hnone : loneKey.settings = [] := rfl
  obtain ⟨c, hc⟩ := h loneKey ⟨_, _, rfl⟩ (by rw [hnone]; exact List.nodup_nil)
    (by rw [hnone]; simp)
  have hform := ((ofText_text_iff loneKey c).mp hc).1 _ List.mem_cons_self
  cases hform

end Config

end LintDiscovery
