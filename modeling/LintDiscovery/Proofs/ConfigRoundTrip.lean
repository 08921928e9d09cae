/-
Configurations written and read again.

`Config.ofText_text` is the round trip: a configuration that was read from some text and whose
arguments hold no doubles is read again, the same, from the text it is written as. So this text is
a normal form, whichever way the first one spelled the configuration.

* Reading: `Config.kept_of_parse` — the extensions of a configuration that was read can stand one
  level inside a text, where they are written again.
* Writing: `readFieldsFrom_setting` passes one setting that was written; its value is read back by
  `readExtensions_chars`, `readPolicy_name` and `readDirs_chars`.
-/
import LintDiscovery.Config.File
import LintDiscovery.Proofs.ValueReadBack

namespace LintDiscovery

open Json (Cursor Position Fault EndsNumber separator itemsText)

/-! ### Extensions as values -/

namespace ExtensionSetting

/-- Whether no argument holds a double. -/
def isWhole : ExtensionSetting → Bool
  | list _ => true
  | map entries => Json.fieldsAreWhole entries

theorem asStrings?_strings (names : List String) :
    (Json.array (names.map .string)).asStrings? = some names := by
  have hname : Json.asString? ∘ Json.string = fun name => pure name := rfl
  rw [Json.asStrings?, List.mapM_map, hname, List.mapM_pure, List.map_id']
  rfl

theorem items_of_mapM_asString? : ∀ {items : List Json} {names : List String},
    items.mapM Json.asString? = some names → items = names.map .string
  | [], names, h => by
    cases h
    rfl
  | v :: items, names, h => by
    simp only [List.mapM_cons, Option.bind_eq_bind, Option.bind_eq_some_iff, Option.pure_def,
      Option.some.injEq] at h
    obtain ⟨name, hname, rest, hrest, rfl⟩ := h
    have hv : v = .string name := by
      cases v <;> cases hname
      rfl
    rw [List.map_cons, hv, items_of_mapM_asString? hrest]

theorem ofJson?_toJson (s : ExtensionSetting) : ofJson? s.toJson = some s := by
  cases s with
  | list names =>
    show (Json.array (names.map .string)).asStrings?.map ExtensionSetting.list = some (list names)
    rw [asStrings?_strings, Option.map_some]
  | map entries => rfl

/-- Only the value that a setting is written as leads to it. -/
theorem toJson_of_ofJson? {v : Json} {s : ExtensionSetting} (h : ofJson? v = some s) :
    s.toJson = v := by
  cases v with
  | object fields =>
    cases h
    rfl
  | array items =>
    obtain ⟨names, hnames, rfl⟩ := Option.map_eq_some_iff.mp h
    rw [toJson, items_of_mapM_asString? hnames]
  | null => cases h
  | bool b => cases h
  | number n => cases h
  | string s => cases h

theorem isWhole_toJson (s : ExtensionSetting) : s.toJson.isWhole = s.isWhole := by
  cases s with
  | map entries => rfl
  | list names =>
    induction names with
    | nil => rfl
    | cons name names ih => exact ih

end ExtensionSetting

namespace Config

/-! ### What is read -/

theorem ok_of_lift {α : Type} {x : Except Fault α} {a : α} (h : lift x = .ok a) : x = .ok a := by
  cases x with
  | error f => cases h
  | ok b =>
    cases h
    rfl

theorem ok_of_settle {α : Type} {close : Cursor → Cursor} {x : Except Failure α} {a : α}
    (h : settle close x = .ok a) : x = .ok a := by
  cases x with
  | error f => cases f <;> cases h
  | ok b =>
    cases h
    rfl

/-- The extensions found so far can stand inside a configuration. -/
def Settings.Kept (s : Settings) : Prop :=
  ∀ e ∈ s.extensions, Json.Kept innerLevels e.toJson

theorem kept_of_readSetting {setting : Setting} {s s' : Settings} {c c' : Cursor} (hs : s.Kept)
    (h : readSetting setting s c = .ok (s', c')) : s'.Kept := by
  cases setting with
  | extensions =>
    obtain ⟨⟨e, _⟩, he, hs'⟩ := exists_of_bind_ok h
    obtain ⟨⟨v, _⟩, hv, hmatch⟩ := exists_of_bind_ok he
    have hkept : Json.Kept innerLevels v := Json.kept_of_readValue (ok_of_lift hv)
    cases hs'
    simp only at hmatch
    split at hmatch
    · rename_i e' hof
      cases hmatch
      intro e₁ he₁
      cases he₁
      rw [ExtensionSetting.toJson_of_ofJson? hof]
      exact hkept
    · cases hmatch
  | policy =>
    obtain ⟨_, -, hs'⟩ := exists_of_bind_ok h
    cases hs'
    exact hs
  | dirs =>
    obtain ⟨_, -, hs'⟩ := exists_of_bind_ok h
    cases hs'
    exact hs

theorem kept_of_readFieldsFrom {fuel : Nat} {first : Bool} {s s' : Settings} {c c' : Cursor}
    (hs : s.Kept) (h : readFieldsFrom fuel first s c = .ok (s', c')) : s'.Kept := by
  induction fuel generalizing first s c with
  | zero => cases h
  | succ fuel ih =>
    obtain ⟨⟨key?, c₁⟩, -, hmatch⟩ := exists_of_bind_ok h
    cases key? with
    | none =>
      cases hmatch
      exact hs
    | some key =>
      simp only at hmatch
      split at hmatch
      · obtain ⟨_, -, hskip⟩ := exists_of_bind_ok hmatch
        obtain ⟨_, -, hrest⟩ := exists_of_bind_ok hskip
        exact ih hs hrest
      · split at hmatch
        · cases hmatch
        · obtain ⟨_, -, hsetting⟩ := exists_of_bind_ok hmatch
          obtain ⟨⟨s₁, _⟩, hread, hrest⟩ := exists_of_bind_ok hsetting
          exact ih (kept_of_readSetting hs hread) hrest

theorem kept_of_readItems {first : Bool} {settings : List Setting} {s s' : Settings}
    {c c' : Cursor} (hs : s.Kept) (h : readItems first settings s c = .ok (s', c')) : s'.Kept := by
  induction settings generalizing first s c with
  | nil =>
    simp only [readItems] at h
    split at h
    · cases h
    · cases h
      exact hs
    · split at h <;> cases h
    · cases h
  | cons setting rest ih =>
    obtain ⟨⟨more, c₁⟩, -, hmatch⟩ := exists_of_bind_ok h
    cases more with
    | false =>
      cases hmatch
      exact hs
    | true =>
      obtain ⟨⟨s₁, _⟩, hread, hrest⟩ := exists_of_bind_ok hmatch
      exact ih (kept_of_readSetting hs hread) hrest

theorem kept_of_read {s : Settings} {c c' : Cursor} (h : read c = .ok (s, c')) : s.Kept := by
  have hnone : Settings.none.Kept := fun e he => by cases he
  simp only [read] at h
  split at h
  · exact kept_of_readFieldsFrom hnone (ok_of_settle h)
  · exact kept_of_readItems hnone (ok_of_settle h)
  · cases ok_of_settle h

/-- The extensions of a configuration that was read can stand inside one. -/
theorem kept_of_parse {raw : String} {c : Config} (h : parse raw = .ok c) :
    Json.Kept innerLevels c.extensions.toJson := by
  obtain ⟨⟨s, _⟩, hread, hfinish⟩ := exists_of_bind_ok h
  obtain ⟨_, -, hc⟩ := exists_of_bind_ok hfinish
  cases hc
  have hs : s.Kept := kept_of_read hread
  cases he : s.extensions with
  | some e =>
    rw [Settings.toConfig, he]
    exact hs e he
  | none =>
    rw [Settings.toConfig, he]
    exact .array (by decide) (by simp)

/-! ### What is written -/

theorem readExtensions_chars {e : ExtensionSetting} (hkept : Json.Kept innerLevels e.toJson)
    (hwhole : e.isWhole = true) {rest : List Char} (hrest : EndsNumber rest) (pos : Position) :
    readExtensions ⟨e.toJson.chars ++ rest, pos⟩ =
      .ok (e, ⟨rest, pos.afterAll e.toJson.chars⟩) := by
  have hread := Json.readValue_chars hkept (e.isWhole_toJson ▸ hwhole) hrest pos
  rw [readExtensions, hread]
  simp only [lift, bind, Except.bind, ExtensionSetting.ofJson?_toJson]
  rfl

theorem readPolicy_name (p : UnknownKindPolicy) (rest : List Char) (pos : Position) :
    readPolicy ⟨Json.stringChars p.name ++ rest, pos⟩ =
      .ok (p, ⟨rest, pos.afterAll (Json.stringChars p.name)⟩) := by
  show (lift (Json.readString (Cursor.advance ⟨Json.stringChars p.name ++ rest, pos⟩)) >>=
    fun read => policyNamed read.1 read.2 >>= fun policy => pure (policy, read.2)) =
      .ok (p, ⟨rest, pos.afterAll (Json.stringChars p.name)⟩)
  rw [Json.readString_stringChars]
  simp only [lift, bind, Except.bind, policyNamed, UnknownKindPolicy.ofName?_name]
  rfl

/-- A directory as an item of a list. -/
def dirItem (p : Path) : Json :=
  .string p.text

theorem readDirsFrom_dir (fuel : Nat) (first : Bool) (done : List Path) (p : Path)
    (rest : List Char) (pos : Position) :
    readDirsFrom (fuel + 1) first done
        ⟨separator first ++ (Json.stringChars p.text ++ rest), pos⟩ =
      readDirsFrom fuel false (p :: done)
        ⟨rest, pos.afterAll (separator first ++ Json.stringChars p.text)⟩ := by
  have hnext : Json.nextItem first ⟨separator first ++ (Json.stringChars p.text ++ rest), pos⟩ =
      .ok (true, ⟨Json.stringChars p.text ++ rest, pos.afterAll (separator first)⟩) :=
    @Json.nextItem_chars (dirItem p) rfl first rest pos
  rw [readDirsFrom, hnext]
  show (lift (Json.readString
      (Cursor.advance ⟨Json.stringChars p.text ++ rest, pos.afterAll (separator first)⟩)) >>=
    fun read => readDirsFrom fuel false (⟨read.1⟩ :: done) read.2) = _
  rw [Json.readString_stringChars, Position.afterAll_append]
  rfl

theorem readDirsFrom_itemsText (dirs : List Path) {fuel : Nat} {first : Bool} {done : List Path}
    {rest : List Char} (pos : Position)
    (hfuel : (itemsText first (dirs.map dirItem)).length ≤ fuel) :
    readDirsFrom fuel first done ⟨itemsText first (dirs.map dirItem) ++ rest, pos⟩ =
      .ok (done.reverse ++ dirs,
        ⟨rest, pos.afterAll (itemsText first (dirs.map dirItem))⟩) := by
  induction dirs generalizing fuel first done pos with
  | nil =>
    obtain ⟨fuel, rfl⟩ := Nat.exists_eq_add_of_le' (show 1 ≤ fuel by simpa [itemsText] using hfuel)
    rw [List.append_nil]
    rfl
  | cons p dirs ih =>
    have htext : itemsText first ((p :: dirs).map dirItem) =
        separator first ++ (Json.stringChars p.text ++ itemsText false (dirs.map dirItem)) := by
      rw [Json.itemsText_false]
      rfl
    have hitem : 0 < (Json.stringChars p.text).length := by simp [Json.stringChars]
    rw [htext] at hfuel ⊢
    simp only [List.length_append] at hfuel
    obtain ⟨fuel, rfl⟩ := Nat.exists_eq_add_of_le' (show 1 ≤ fuel by omega)
    rw [List.append_assoc, List.append_assoc, readDirsFrom_dir, ih _ (by omega)]
    simp

theorem readDirs_chars (dirs : List Path) (rest : List Char) (pos : Position) :
    readDirs ⟨(Json.array (dirs.map dirItem)).chars ++ rest, pos⟩ =
      .ok (dirs, ⟨rest, pos.afterAll (Json.array (dirs.map dirItem)).chars⟩) := by
  have hchars : (Json.array (dirs.map dirItem)).chars = '[' :: itemsText true (dirs.map dirItem) := by
    rw [Json.chars, Json.itemsText_true]
  have hopen : readDirs ⟨'[' :: (itemsText true (dirs.map dirItem) ++ rest), pos⟩ =
      readDirsFrom ((itemsText true (dirs.map dirItem) ++ rest).length + 1 + 1) true []
        ⟨itemsText true (dirs.map dirItem) ++ rest, pos.after '['⟩ := rfl
  have hrounds : (itemsText true (dirs.map dirItem)).length ≤
      (itemsText true (dirs.map dirItem) ++ rest).length + 1 + 1 := by
    rw [List.length_append]
    omega
  rw [hchars, List.cons_append, hopen, readDirsFrom_itemsText dirs _ hrounds]
  rfl

/-! ### The whole -/

/-- A setting that is written with its key is passed, whatever place it has. -/
theorem readFieldsFrom_setting {setting : Setting} {s s' : Settings} {value rest : List Char}
    (hnew : s.has setting = false)
    (hread : ∀ pos, readSetting setting s ⟨value ++ rest, pos⟩ =
      .ok (s', ⟨rest, pos.afterAll value⟩)) (fuel : Nat) (first : Bool) (pos : Position) :
    readFieldsFrom (fuel + 1) first s
        ⟨separator first ++ (Json.stringChars setting.key ++ ':' :: (value ++ rest)), pos⟩ =
      readFieldsFrom fuel false s'
        ⟨rest, pos.afterAll (separator first ++ Json.stringChars setting.key ++ ':' :: value)⟩ := by
  have hkey := Json.nextKey_separator first setting.key (':' :: (value ++ rest)) pos
  have hcolon := Json.readColon_self (value ++ rest)
    (pos.afterAll (separator first ++ Json.stringChars setting.key))
  rw [readFieldsFrom, hkey]
  simp only [lift, bind, Except.bind, Setting.ofKey?_key, hnew, hcolon, hread,
    Bool.false_eq_true, if_false]
  simp only [Position.afterAll_append, Position.afterAll_cons]

/-- The fields that a configuration is written as, behind the brace. -/
def fieldsText (c : Config) : List Char :=
  separator true ++ (Json.stringChars Setting.extensions.key ++ ':' ::
    (c.extensions.toJson.chars ++
  (separator false ++ (Json.stringChars Setting.policy.key ++ ':' ::
    (Json.stringChars c.policy.name ++
  (separator false ++ (Json.stringChars Setting.dirs.key ++ ':' ::
    ((Json.array (c.dirs.map dirItem)).chars ++ ['\x7d']))))))))

theorem chars_toJson (c : Config) : c.toJson.chars = '\x7b' :: c.fieldsText := by
  have hdirs : (fun p => Json.string p.text) = dirItem := rfl
  simp [toJson, fieldsText, Json.chars, Json.fieldChars, Json.moreFieldChars, separator, hdirs]

/-- The fields that a configuration is written as give all its settings. -/
theorem readFieldsFrom_fieldsText {c : Config}
    (hkept : Json.Kept innerLevels c.extensions.toJson) (hwhole : c.extensions.isWhole = true)
    (fuel : Nat) (pos : Position) :
    readFieldsFrom (fuel + 4) true .none ⟨c.fieldsText, pos⟩ =
      .ok (⟨some c.extensions, some c.policy, some c.dirs⟩, ⟨[], pos.afterAll c.fieldsText⟩) := by
  have hextensions : ∀ rest pos, readSetting .extensions .none
      ⟨c.extensions.toJson.chars ++ (separator false ++ rest), pos⟩ =
        .ok (⟨some c.extensions, none, none⟩,
          ⟨separator false ++ rest, pos.afterAll c.extensions.toJson.chars⟩) := by
    intro rest pos
    have hrest : EndsNumber (separator false ++ rest) := Json.endsNumber_cons (.inl rfl) rest
    rw [readSetting, readExtensions_chars hkept hwhole hrest]
    rfl
  have hpolicy : ∀ rest pos, readSetting .policy ⟨some c.extensions, none, none⟩
      ⟨Json.stringChars c.policy.name ++ rest, pos⟩ =
        .ok (⟨some c.extensions, some c.policy, none⟩,
          ⟨rest, pos.afterAll (Json.stringChars c.policy.name)⟩) := by
    intro rest pos
    rw [readSetting, readPolicy_name]
    rfl
  have hdirs : ∀ rest pos, readSetting .dirs ⟨some c.extensions, some c.policy, none⟩
      ⟨(Json.array (c.dirs.map dirItem)).chars ++ rest, pos⟩ =
        .ok (⟨some c.extensions, some c.policy, some c.dirs⟩,
          ⟨rest, pos.afterAll (Json.array (c.dirs.map dirItem)).chars⟩) := by
    intro rest pos
    rw [readSetting, readDirs_chars]
    rfl
  have hend : ∀ s pos, readFieldsFrom (fuel + 1) false s ⟨['\x7d'], pos⟩ =
      .ok (s, ⟨[], pos.after '\x7d'⟩) := fun s pos => rfl
  rw [fieldsText, readFieldsFrom_setting rfl (hextensions _),
    readFieldsFrom_setting rfl (hpolicy _), readFieldsFrom_setting rfl (hdirs _), hend]
  simp

theorem parse_text {c : Config} (hkept : Json.Kept innerLevels c.extensions.toJson)
    (hwhole : c.extensions.isWhole = true) : parse c.text = .ok c := by
  have hstart : Cursor.start c.text = ⟨'\x7b' :: c.fieldsText, .start⟩ := by
    rw [Cursor.start, text, Json.text, String.toList_ofList, chars_toJson]
  -- each of the three settings takes a round and has a character; the brace takes the last round
  have hlength : 3 ≤ c.fieldsText.length := by
    simp only [fieldsText, List.length_append, List.length_cons]
    omega
  obtain ⟨fuel, hfuel⟩ := Nat.exists_eq_add_of_le' (show 4 ≤ c.fieldsText.length + 1 + 1 by omega)
  have hfields := readFieldsFrom_fieldsText hkept hwhole fuel (Position.start.after '\x7b')
  rw [← hfuel] at hfields
  have hread : read ⟨'\x7b' :: c.fieldsText, .start⟩ =
      settle objectEnd (readFieldsFrom (c.fieldsText.length + 1 + 1) true .none
        ⟨c.fieldsText, Position.start.after '\x7b'⟩) := rfl
  rw [parse, hstart, hread, hfields]
  rfl

theorem parse_of_ofText {raw : String} {c : Config} (h : ofText raw = .ok c) :
    parse raw = .ok c := by
  unfold ofText at h
  cases hc : parse raw with
  | error f =>
    rw [hc] at h
    cases h
  | ok c' =>
    rw [hc] at h
    cases h
    rfl

/-- **A configuration that was read is read again from the text it is written as**, if its
arguments hold no doubles. So this text is written again as it is. -/
theorem ofText_text {raw : String} {c : Config} (h : ofText raw = .ok c)
    (hwhole : c.extensions.isWhole = true) :
    ofText c.text = .ok c ∧ (ofText c.text).map text = .ok c.text := by
  have hkept : Json.Kept innerLevels c.extensions.toJson := kept_of_parse (parse_of_ofText h)
  have hread : ofText c.text = .ok c := by
    rw [ofText, parse_text hkept hwhole]
    rfl
  rw [hread]
  exact ⟨rfl, rfl⟩

/-- A configuration spelled as an array, with blanks, a repeated key, escapes, the policy given as a
field and no directories. -/
def looseText : String :=
  "[ \x7b\"no-debugger\": \x7b\"a\": 1, \"b\": \"\\u0041\\/\", " ++
    "\"a\": [-2, 18446744073709551615]\x7d\x7d, \x7b\"reject\": null\x7d ]"

/-- The configuration that `looseText` holds. -/
def looseConfig : Config :=
  ⟨.map [("no-debugger", .object [
      ("a", .array [.number (.integer (-2)), .number (.integer 18446744073709551615)]),
      ("b", .string "A/")])],
    .reject, []⟩

theorem ofText_text_looseConfig :
    ofText looseText = .ok looseConfig ∧ looseConfig.extensions.isWhole = true ∧
      ofText looseConfig.text = .ok looseConfig ∧
      (ofText looseConfig.text).map text = .ok looseConfig.text := by
  have hread : ofText looseText = .ok looseConfig := by
    have hsome : (ofText looseText).toOption = some looseConfig := by decide +kernel
    cases hc : ofText looseText with
    | error f =>
      rw [hc] at hsome
      cases hsome
    | ok c =>
      rw [hc] at hsome
      cases hsome
      rfl
  exact ⟨hread, rfl, ofText_text hread rfl⟩

example : looseConfig.text =
    "\x7b\"extensions\":\x7b\"no-debugger\":\x7b\"a\":[-2,18446744073709551615],\"b\":\"A/\"" ++
      "\x7d\x7d,\"unknownKindPolicy\":\"reject\",\"extensionDirs\":[]\x7d" := by
  decide +kernel

end Config

end LintDiscovery
