/-
Texts of configurations as they are spelled.

A `Document` is a JSON text: a spelled value with blanks around it. `Config.ofText_text_iff` says of
every document which configuration it is read as, if any, from nothing but the settings it gives:

* `Document.settings` — the settings that a text gives, and how each is spelled;
* `Document.HasForm` — the texts that have the form of a configuration;
* `Config.Holds` — a configuration holds what the settings given stand for and the defaults of the
  others.

The readers of fields and items take the settings found so far from one to the next.
`Settings.Takes` is what all the steps come to, and `takes_cons` is one of them.
-/
import LintDiscovery.Proofs.SpelledSettings
import LintDiscovery.Proofs.SpellingSkipping

namespace LintDiscovery

open Json (Cursor Position EndsNumber Blanks Lead Spelling separator)

namespace Config

/-! ### Settings taken one after the other -/

/-- Some settings are taken, each once and none that was there, each as what its spelling stands
for, and nothing else changes. -/
structure Settings.Takes (st : Settings) (given : List (Setting × Spelling)) (st' : Settings) :
    Prop where
  once : (given.map Prod.fst).Nodup
  fresh : ∀ s ∈ given.map Prod.fst, st.get s = .none
  found : ∀ s t, (s, t) ∈ given → ∃ v, s.ofSpelling? t = some v ∧ st'.get s = some v
  kept : ∀ s, s ∉ given.map Prod.fst → st'.get s = st.get s

namespace Settings

theorem takes_nil {st st' : Settings} : st.Takes [] st' ↔ st = st' := by
  constructor
  · intro h
    exact ext_get fun s => (h.kept s List.not_mem_nil).symm
  · rintro rfl
    exact ⟨List.nodup_nil, by simp, by simp, fun _ _ => rfl⟩

theorem takes_cons {st st' : Settings} {s : Setting} {t : Spelling}
    {given : List (Setting × Spelling)} :
    st.Takes ((s, t) :: given) st' ↔
      st.get s = .none ∧ ∃ v, s.ofSpelling? t = some v ∧ (st.set s v).Takes given st' := by
  constructor
  · rintro ⟨once, fresh, found, kept⟩
    rw [List.map_cons, List.nodup_cons] at once
    obtain ⟨v, hv, hst'⟩ := found s t List.mem_cons_self
    -- what comes behind it does not give the first setting again
    refine ⟨fresh s List.mem_cons_self, v, hv, once.2, fun s' hs' => ?_,
      fun s' t' h' => found s' t' (List.mem_cons_of_mem _ h'), fun s' hs' => ?_⟩
    · have hne : s' ≠ s := fun heq => once.1 (heq ▸ hs')
      rw [get_set_of_ne st hne]
      exact fresh s' (List.mem_cons_of_mem s hs')
    · by_cases heq : s' = s
      · subst heq
        rw [hst', get_set_self]
      · rw [get_set_of_ne st heq]
        exact kept s' (by simp [heq, hs'])
  · rintro ⟨hnone, v, hv, once, fresh, found, kept⟩
    have hnew : s ∉ given.map Prod.fst := by
      intro hs
      have := fresh s hs
      rw [get_set_self] at this
      cases this
    refine ⟨List.nodup_cons.mpr ⟨hnew, once⟩, fun s' hs' => ?_, fun s' t' h' => ?_,
      fun s' hs' => ?_⟩
    · by_cases heq : s' = s
      · rw [heq, hnone]
      · rw [← get_set_of_ne st heq v]
        exact fresh s' ((List.mem_cons.mp hs').resolve_left heq)
    · rcases List.mem_cons.mp h' with heq | h'
      · cases heq
        exact ⟨v, hv, by rw [kept s hnew, get_set_self]⟩
      · exact found s' t' h'
    · rw [List.map_cons, List.mem_cons, not_or] at hs'
      rw [kept s' hs'.2, get_set_of_ne st hs'.1]

end Settings

/-! ### Fields of an object -/

/-- The settings among the fields of an object, in order. -/
def settingsOf (fields : List (Lead × Spelling × Blanks)) : List (Setting × Spelling) :=
  fields.filterMap fun field =>
    (field.1.key.content?.bind Setting.ofKey?).map fun s => (s, field.2.1)

/-- Whether all keys of an object stand for strings. -/
def KeysDenote (fields : List (Lead × Spelling × Blanks)) : Prop :=
  ∀ field ∈ fields, field.1.key.content?.isSome

theorem settingsOf_cons (lead : Lead) (t : Spelling) (behind : Blanks)
    (fields : List (Lead × Spelling × Blanks)) :
    settingsOf ((lead, t, behind) :: fields) =
      match lead.key.content?.bind Setting.ofKey? with
      | some s => (s, t) :: settingsOf fields
      | none => settingsOf fields := by
  rw [settingsOf, List.filterMap_cons]
  cases lead.key.content?.bind Setting.ofKey? <;> rfl

theorem readFieldsFrom_blanks (ws : Blanks) (fuel : Nat) (first : Bool) (st : Settings)
    (cs : List Char) (pos : Position) :
    (readFieldsFrom fuel first st ⟨ws.chars ++ cs, pos⟩).toOption =
      (readFieldsFrom fuel first st ⟨cs, pos.afterAll ws.chars⟩).toOption := by
  cases fuel with
  | zero => rfl
  | succ fuel => rw [readFieldsFrom, readFieldsFrom, Json.nextKey_blanks]

/-- What one more field does. -/
def Settings.take? (st : Settings) (lead : Lead) (t : Spelling) : Option Settings :=
  lead.key.content?.bind fun key =>
    match Setting.ofKey? key with
    | .none => some st
    | some s => if st.has s then .none else (s.ofSpelling? t).map (st.set s)

theorem toOption_readFieldsFrom_field (lead : Lead) (t : Spelling) (fuel : Nat) (first : Bool)
    (st : Settings) {rest : List Char} (hrest : EndsNumber rest) (pos : Position) :
    (readFieldsFrom (fuel + 1) first st
        ⟨separator first ++ (lead.chars ++ (t.chars ++ rest)), pos⟩).toOption =
      (st.take? lead t).bind fun st =>
        (readFieldsFrom fuel false st
          ⟨rest, pos.afterAll (separator first ++ (lead.chars ++ t.chars))⟩).toOption := by
  obtain ⟨before, key, beforeColon, afterColon⟩ := lead
  have hkey := Json.toOption_nextKey before key first
    (beforeColon.chars ++ ':' :: (afterColon.chars ++ (t.chars ++ rest))) pos
  simp only [Lead.chars, List.append_assoc, List.cons_append]
  rw [readFieldsFrom, toOption_bind, toOption_lift, hkey, Settings.take?]
  cases key.content? with
  | none => rfl
  | some name =>
    simp only [Option.map_some, Option.bind_some]
    -- the value of a field is read where its key is that of a setting, and passed where it is not
    cases Setting.ofKey? name with
    | none =>
      simp only [toOption_bind, toOption_lift, Json.readColon_blanks, toOption_ok,
        Option.bind_some, Spelling.skipValue_append afterColon t hrest]
      simp
    | some s =>
      simp only
      split
      · rfl
      · simp only [toOption_bind, toOption_lift, Json.readColon_blanks, toOption_ok,
          Option.bind_some, toOption_readSetting s st afterColon t hrest]
        cases s.ofSpelling? t <;> simp

theorem toOption_readFieldsFrom (fields : List (Lead × Spelling × Blanks)) (inner : Blanks)
    {fuel : Nat} {first : Bool} {st : Settings} {rest : List Char} (pos : Position)
    (h : (Spelling.fieldsChars first fields ++ (inner.chars ++ ['\x7d'])).length ≤ fuel) :
    (readFieldsFrom fuel first st
        ⟨Spelling.fieldsChars first fields ++ (inner.chars ++ '\x7d' :: rest), pos⟩).toOption =
      (fields.foldlM (fun (st : Settings) field => st.take? field.1 field.2.1) st).map
        (·, ⟨rest, pos.afterAll
          (Spelling.fieldsChars first fields ++ (inner.chars ++ ['\x7d']))⟩) := by
  induction fields generalizing fuel first st pos with
  | nil =>
    simp only [Spelling.fieldsChars, List.length_append, List.length_cons] at h
    obtain ⟨fuel, rfl⟩ := Nat.exists_eq_add_of_le' (show 1 ≤ fuel by omega)
    rw [Spelling.fieldsChars, List.nil_append, readFieldsFrom, Json.nextKey_end]
    simp [toOption_bind, toOption_lift]
  | cons field fields ih =>
    obtain ⟨lead, t, behind⟩ := field
    have ht := t.length_chars_pos
    simp only [Spelling.fieldsChars, List.length_append, List.length_cons] at h
    obtain ⟨fuel, rfl⟩ := Nat.exists_eq_add_of_le' (show 1 ≤ fuel by omega)
    have hrounds : (Spelling.fieldsChars false fields ++ (inner.chars ++ ['\x7d'])).length ≤
        fuel := by
      simp only [List.length_append, List.length_cons]
      omega
    simp only [Spelling.fieldsChars, List.append_assoc]
    rw [toOption_readFieldsFrom_field lead t fuel first st
      (Json.endsNumber_blanks behind (Spelling.endsNumber_fields fields inner rest)),
      List.foldlM_cons]
    cases st.take? lead t with
    | none => rfl
    | some st =>
      rw [Option.bind_some, readFieldsFrom_blanks, ih _ hrounds]
      simp

/-- Fields are taken as the settings among them, if all their keys stand for strings. -/
theorem foldlM_take?_eq_some_iff (fields : List (Lead × Spelling × Blanks)) (st st' : Settings) :
    fields.foldlM (fun (st : Settings) field => st.take? field.1 field.2.1) st = some st' ↔
      KeysDenote fields ∧ st.Takes (settingsOf fields) st' := by
  induction fields generalizing st with
  | nil => simp [KeysDenote, settingsOf, Settings.takes_nil]
  | cons field fields ih =>
    obtain ⟨lead, t, behind⟩ := field
    rw [List.foldlM_cons, settingsOf_cons, Settings.take?, KeysDenote, List.forall_mem_cons]
    cases lead.key.content? with
    | none => simp
    | some key =>
      simp only [Option.bind_some, Option.isSome_some, true_and]
      cases Setting.ofKey? key with
      | none => exact ih st
      | some s =>
        simp only [Settings.takes_cons, Settings.has_eq]
        cases hs : st.get s with
        | some v => simp
        | none =>
          cases s.ofSpelling? t with
          | none => simp
          | some v =>
            simp only [Option.isSome_none, Bool.false_eq_true, if_false, Option.map_some]
            refine (ih (st.set s v)).trans ?_
            simp [KeysDenote]

/-! ### Items of an array -/

theorem readItems_blanks (ws : Blanks) (first : Bool) (todo : List Setting) (st : Settings)
    (cs : List Char) (pos : Position) :
    readItems first todo st ⟨ws.chars ++ cs, pos⟩ =
      readItems first todo st ⟨cs, pos.afterAll ws.chars⟩ := by
  cases todo with
  | nil =>
    unfold readItems
    rw [Json.skipSpace_blanks]
  | cons s todo => rw [readItems, readItems, Json.nextItem_blanks]

/-- What items do that stand for settings in the given order. -/
def Settings.takeItems? (st : Settings) : List Setting → List Spelling → Option Settings
  | _, [] => some st
  | [], _ :: _ => .none
  | s :: todo, t :: ts => (s.ofSpelling? t).bind fun v => (st.set s v).takeItems? todo ts

/-- Behind the last setting there is no further item. -/
theorem toOption_readItems_surplus (before : Blanks) (t : Spelling) (first : Bool) (st : Settings)
    (rest : List Char) (pos : Position) :
    (readItems first [] st
      ⟨separator first ++ (before.chars ++ (t.chars ++ rest)), pos⟩).toOption = none := by
  cases first with
  | true =>
    obtain ⟨x, xs, hx, -, hend⟩ := t.exists_chars_cons
    have hspace := skipSpace_spelling before t rest pos
    rw [hx, List.cons_append] at hspace
    unfold readItems
    simp only [separator, if_true, List.nil_append, hx, List.cons_append, hspace]
    split
    · rfl
    · rename_i heq
      exact absurd (List.cons.inj heq).1 hend
    · split <;> rfl
    · rfl
  | false =>
    have hspace : Cursor.skipSpace ⟨',' :: (before.chars ++ (t.chars ++ rest)), pos⟩ =
        ⟨',' :: (before.chars ++ (t.chars ++ rest)), pos⟩ := rfl
    unfold readItems
    simp only [separator, Bool.false_eq_true, if_false, List.cons_append, List.nil_append, hspace]
    split <;> rfl

theorem toOption_readItems (items : List (Blanks × Spelling × Blanks)) (inner : Blanks)
    (todo : List Setting) (first : Bool) (st : Settings) (rest : List Char) (pos : Position) :
    (readItems first todo st
        ⟨Spelling.itemsChars first items ++ (inner.chars ++ ']' :: rest), pos⟩).toOption =
      (st.takeItems? todo (items.map fun item => item.2.1)).map
        (·, ⟨rest, pos.afterAll
          (Spelling.itemsChars first items ++ (inner.chars ++ [']']))⟩) := by
  induction items generalizing todo first st pos with
  | nil =>
    simp only [Spelling.itemsChars, List.nil_append]
    cases todo with
    | nil =>
      rw [readItems_blanks, Position.afterAll_append]
      rfl
    | cons s todo =>
      rw [readItems, Json.nextItem_end]
      simp [toOption_bind, toOption_lift, Settings.takeItems?]
  | cons item items ih =>
    obtain ⟨before, t, behind⟩ := item
    simp only [Spelling.itemsChars, List.append_assoc]
    cases todo with
    | nil => exact toOption_readItems_surplus before t first st _ pos
    | cons s todo =>
      have hends := Json.endsNumber_blanks behind (Spelling.endsNumber_items items inner rest)
      -- the blanks before the item have been passed when its setting is read
      have hread := toOption_readSetting s st Blanks.none t hends
      simp only [Blanks.none, List.nil_append] at hread
      rw [readItems, Spelling.nextItem_chars]
      simp only [toOption_bind, toOption_lift, toOption_ok, Option.bind_some, hread, List.map_cons,
        Settings.takeItems?]
      cases s.ofSpelling? t with
      | none => rfl
      | some v =>
        simp only [Option.map_some, Option.bind_some, readItems_blanks, ih]
        simp

theorem takeItems?_eq_some_iff (ts : List Spelling) (todo : List Setting) (st st' : Settings)
    (hdistinct : todo.Nodup) (hfresh : ∀ s ∈ todo, st.get s = none) :
    st.takeItems? todo ts = some st' ↔
      ts.length ≤ todo.length ∧ st.Takes (todo.zip ts) st' := by
  induction ts generalizing todo st with
  | nil => simp [Settings.takeItems?, Settings.takes_nil]
  | cons t ts ih =>
    cases todo with
    | nil => simp [Settings.takeItems?]
    | cons s todo =>
      rw [List.nodup_cons] at hdistinct
      rw [List.forall_mem_cons] at hfresh
      rw [List.zip_cons_cons, Settings.takes_cons, Settings.takeItems?, List.length_cons,
        List.length_cons, Nat.add_le_add_iff_right]
      cases s.ofSpelling? t with
      | none => simp
      | some v =>
        -- the setting found is none of those to come
        have hfresh' : ∀ s' ∈ todo, (st.set s v).get s' = none := fun s' hs' => by
          have hne : s' ≠ s := fun heq => hdistinct.1 (heq ▸ hs')
          rw [Settings.get_set_of_ne st hne]
          exact hfresh.2 s' hs'
        rw [Option.bind_some, ih todo (st.set s v) hdistinct.2 hfresh']
        simp [hfresh.1]

end Config

/-! ### Documents -/

/-- A JSON text as it is spelled. -/
structure Document where
  before : Blanks
  value : Spelling
  behind : Blanks

namespace Document

/-- The text. -/
def text (d : Document) : String :=
  String.ofList (d.before.chars ++ (d.value.chars ++ d.behind.chars))

/-- The settings that a text gives, in its order: the fields of an object with the key of one, or
the items of an array one after the other. -/
def settings (d : Document) : List (Setting × Spelling) :=
  match d.value with
  | .object fields _ => Config.settingsOf fields
  | .array items _ =>
    [.extensions, .policy, .dirs].zip (items.map fun item => item.2.1)
  | _ => []

/-- Whether a text has the form of a configuration: an object whose keys stand for strings, or an
array of no more items than there are settings. -/
def HasForm (d : Document) : Prop :=
  match d.value with
  | .object fields _ => Config.KeysDenote fields
  | .array items _ => items.length ≤ 3
  | _ => False

end Document

namespace Config

/-- What a configuration holds, where these settings are given. -/
structure Holds (given : List (Setting × Spelling)) (c : Config) : Prop where
  found : ∀ s t, (s, t) ∈ given → s.ofSpelling? t = some (c.get s)
  missing : ∀ s, s ∉ given.map Prod.fst → c.get s = Config.default.get s

theorem toOption_read (d : Document) :
    (read (.start d.text)).toOption =
      match d.value with
      | .object fields _ =>
        (fields.foldlM (fun (st : Settings) field => st.take? field.1 field.2.1) .none).map
          (·, ⟨d.behind.chars, Position.start.afterAll (d.before.chars ++ d.value.chars)⟩)
      | .array items _ =>
        (Settings.none.takeItems? [.extensions, .policy, .dirs]
          (items.map fun item => item.2.1)).map
            (·, ⟨d.behind.chars, Position.start.afterAll (d.before.chars ++ d.value.chars)⟩)
      | _ => none := by
  obtain ⟨before, t, behind⟩ := d
  have hstart : Cursor.start (Document.text ⟨before, t, behind⟩) =
      ⟨before.chars ++ (t.chars ++ behind.chars), .start⟩ := by
    rw [Cursor.start, Document.text, String.toList_ofList]
  obtain ⟨x, xs, hx, -⟩ := t.exists_chars_cons
  obtain ⟨-, -, hbracket, hbrace⟩ := Spelling.kind_of_chars hx
  rw [hstart]
  -- the first character tells an object from an array, and anything else is refused
  unfold read
  rw [skipSpace_spelling]
  cases t with
  | object fields inner =>
    have hrounds : (Spelling.fieldsChars true fields ++ (inner.chars ++ ['\x7d'])).length ≤
        ((Spelling.object fields inner).chars ++ behind.chars).length + 1 := by
      simp only [Spelling.chars, List.length_append, List.length_cons]
      omega
    have hread := @toOption_readFieldsFrom fields inner _ true .none behind.chars
      ((Position.start.afterAll before.chars).after '\x7b') hrounds
    rw [Spelling.object_append] at hread ⊢
    refine (toOption_settle _ _).trans (hread.trans ?_)
    simp [Spelling.chars]
  | array items inner =>
    have hread := toOption_readItems items inner [.extensions, .policy, .dirs] true .none
      behind.chars ((Position.start.afterAll before.chars).after '[')
    rw [Spelling.array_append]
    refine (toOption_settle _ _).trans (hread.trans ?_)
    simp [Spelling.chars]
  | _ =>
    have hb : x ≠ '[' := by
      intro heq
      obtain ⟨_, _, hkind⟩ := hbracket heq
      cases hkind
    have hb' : x ≠ '\x7b' := by
      intro heq
      obtain ⟨_, _, hkind⟩ := hbrace heq
      cases hkind
    simp [hx, hb, hb', toOption_settle]

/-- The settings of a configuration that are in a list. -/
def restrict (c : Config) (keys : List Setting) : Settings :=
  ⟨if .extensions ∈ keys then some c.extensions else none,
    if .policy ∈ keys then some c.policy else none, if .dirs ∈ keys then some c.dirs else none⟩

theorem get_restrict (c : Config) (keys : List Setting) (s : Setting) :
    (c.restrict keys).get s = if s ∈ keys then some (c.get s) else none := by
  cases s <;> rfl

/-- Settings found one after the other, from nothing, are those of a configuration. -/
theorem takes_none_iff (given : List (Setting × Spelling)) (c : Config) :
    (∃ st, Settings.none.Takes given st ∧ st.toConfig = c) ↔
      (given.map Prod.fst).Nodup ∧ Holds given c := by
  constructor
  · rintro ⟨st, ⟨once, fresh, found, kept⟩, rfl⟩
    refine ⟨once, fun s t h => ?_, fun s h => ?_⟩
    · obtain ⟨v, hv, hst⟩ := found s t h
      rw [hv, Settings.get_toConfig, hst, Option.getD_some]
    · rw [Settings.get_toConfig, kept s h]
      cases s <;> rfl
  · rintro ⟨once, found, missing⟩
    have hfresh : ∀ s ∈ given.map Prod.fst, Settings.none.get s = none := fun s _ =>
      Settings.get_none s
    refine ⟨c.restrict (given.map Prod.fst), ⟨once, hfresh, fun s t h => ?_, fun s h => ?_⟩,
      ext_get fun s => ?_⟩
    · have hmem : s ∈ given.map Prod.fst := List.mem_map.mpr ⟨(s, t), h, rfl⟩
      exact ⟨c.get s, found s t h, by rw [get_restrict, if_pos hmem]⟩
    · rw [get_restrict, if_neg h, Settings.get_none]
    · rw [Settings.get_toConfig, get_restrict]
      split
      · rfl
      · rename_i h
        exact (missing s h).symm

theorem finish_blanks (ws : Blanks) (pos : Position) : Json.finish ⟨ws.chars, pos⟩ = .ok () := by
  have hskip := Json.skipSpace_blanks ws [] pos
  rw [List.append_nil] at hskip
  unfold Json.finish
  rw [hskip]
  rfl

theorem ofText_eq_ok_iff (raw : String) (c : Config) :
    ofText raw = .ok c ↔
      ∃ st cursor, (read (.start raw)).toOption = some (st, cursor) ∧
        Json.finish cursor = .ok () ∧ st.toConfig = c := by
  constructor
  · intro h
    obtain ⟨⟨st, cursor⟩, hread, hfinish⟩ := exists_of_bind_ok (parse_of_ofText h)
    obtain ⟨_, hend, hc⟩ := exists_of_bind_ok hfinish
    cases hc
    exact ⟨st, cursor, by rw [hread]; rfl, ok_of_lift (ok_of_settle hend), rfl⟩
  · rintro ⟨st, cursor, hread, hfinish, rfl⟩
    have hparse : parse raw = .ok st.toConfig := by
      rw [parse, eq_ok_of_toOption hread]
      show (settle id (lift (Json.finish cursor)) >>= fun _ => pure st.toConfig) = _
      rw [hfinish]
      rfl
    rw [ofText, hparse]
    rfl

/-- What the reader takes a document for. -/
theorem exists_read_iff (d : Document) (c : Config) :
    (∃ st cursor, (read (.start d.text)).toOption = some (st, cursor) ∧
      Json.finish cursor = .ok () ∧ st.toConfig = c) ↔
        d.HasForm ∧ ∃ st, Settings.none.Takes d.settings st ∧ st.toConfig = c := by
  rw [toOption_read]
  obtain ⟨before, t, behind⟩ := d
  cases t with
  | object fields inner =>
    simp only [Document.HasForm, Document.settings, Option.map_eq_some_iff, Prod.mk.injEq,
      foldlM_take?_eq_some_iff]
    constructor
    · rintro ⟨st, cursor, ⟨st', ⟨hkeys, htakes⟩, rfl, -⟩, -, hc⟩
      exact ⟨hkeys, st', htakes, hc⟩
    · rintro ⟨hkeys, st, htakes, hc⟩
      exact ⟨st, _, ⟨st, ⟨hkeys, htakes⟩, rfl, rfl⟩, finish_blanks behind _, hc⟩
  | array items inner =>
    have hitems := fun st' => takeItems?_eq_some_iff (items.map fun item => item.2.1)
      [.extensions, .policy, .dirs] .none st' (by decide) fun s _ => Settings.get_none s
    simp only [Document.HasForm, Document.settings, Option.map_eq_some_iff, Prod.mk.injEq,
      hitems, List.length_map]
    constructor
    · rintro ⟨st, cursor, ⟨st', ⟨hlength, htakes⟩, rfl, -⟩, -, hc⟩
      exact ⟨hlength, st', htakes, hc⟩
    · rintro ⟨hlength, st, htakes, hc⟩
      exact ⟨st, _, ⟨st, ⟨hlength, htakes⟩, rfl, rfl⟩, finish_blanks behind _, hc⟩
  | _ => simp [Document.HasForm]

/-- **A text is a configuration exactly where** it has the form of one, gives no setting twice, and
each setting it gives can be what its spelling stands for; and this alone, with the defaults of the
settings it does not give, is what the configuration holds. -/
theorem ofText_text_iff (d : Document) (c : Config) :
    ofText d.text = .ok c ↔
      d.HasForm ∧ (d.settings.map Prod.fst).Nodup ∧ Holds d.settings c := by
  rw [ofText_eq_ok_iff, exists_read_iff, takes_none_iff]

end Config

end LintDiscovery
