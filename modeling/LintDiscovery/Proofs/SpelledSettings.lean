/-
Spelled values that are read as settings.

`Setting.ofSpelling?` is what a spelling stands for as the value of a setting, and
`Config.toOption_readSetting` says that this is what the reader of the setting gives:

* `Config.toOption_readExtensions` — extensions, which are read as a value first;
* `Config.toOption_readPolicy` — a policy, which may be a name or an object with one field;
* `Config.toOption_readDirs` — a list of paths.

Only extensions are values of any kind. Of the other two readers each looks for the first character
of what it can take, and `Spelling.kind_of_chars` tells what that character rules out.
-/
import LintDiscovery.Proofs.ConfigRoundTrip
import LintDiscovery.Proofs.SpellingReading

namespace LintDiscovery

open Json (Cursor Position Fault EndsNumber Blanks Lead Spelling separator)

/-! ### What settings stand for -/

/-- The extensions that a spelling stands for. -/
def ExtensionSetting.ofSpelling? (t : Spelling) : Option ExtensionSetting :=
  (t.value? Config.innerLevels).bind ofJson?

/-- The policy that a spelling stands for: its name, or an object whose only field has this name
and holds nothing. -/
def UnknownKindPolicy.ofSpelling? : Spelling → Option UnknownKindPolicy
  | .string q => q.content?.bind ofName?
  | .object [(lead, .null, _)] _ => lead.key.content?.bind ofName?
  | _ => none

/-- The path that a spelling stands for. -/
def Path.ofSpelling? : Spelling → Option Path
  | .string q => q.content?.map Path.mk
  | _ => none

/-- The paths that a spelling stands for. -/
def Path.listOfSpelling? : Spelling → Option (List Path)
  | .array items _ => items.mapM fun item => ofSpelling? item.2.1
  | _ => none

namespace Setting

/-- The values of a setting. -/
def Value : Setting → Type
  | extensions => ExtensionSetting
  | policy => UnknownKindPolicy
  | dirs => List Path

/-- What a spelling stands for as the value of a setting. -/
def ofSpelling? : (s : Setting) → Spelling → Option s.Value
  | extensions => ExtensionSetting.ofSpelling?
  | policy => UnknownKindPolicy.ofSpelling?
  | dirs => Path.listOfSpelling?

end Setting

namespace Config

/-- The value of a setting. -/
def get (c : Config) : (s : Setting) → s.Value
  | .extensions => c.extensions
  | .policy => c.policy
  | .dirs => c.dirs

theorem ext_get {c c' : Config} (h : ∀ s, c.get s = c'.get s) : c = c' := by
  obtain ⟨extensions, policy, dirs⟩ := c
  obtain rfl : extensions = _ := h .extensions
  obtain rfl : policy = _ := h .policy
  obtain rfl : dirs = _ := h .dirs
  rfl

namespace Settings

/-- The value of a setting, if it has been found. -/
def get (st : Settings) : (s : Setting) → Option s.Value
  | .extensions => st.extensions
  | .policy => st.policy
  | .dirs => st.dirs

/-- The settings found so far and one more. -/
def set (st : Settings) : (s : Setting) → s.Value → Settings
  | .extensions, v => ⟨some v, st.policy, st.dirs⟩
  | .policy, v => ⟨st.extensions, some v, st.dirs⟩
  | .dirs, v => ⟨st.extensions, st.policy, some v⟩

theorem get_none (s : Setting) : Settings.none.get s = .none := by
  cases s <;> rfl

theorem has_eq (st : Settings) (s : Setting) : st.has s = (st.get s).isSome := by
  cases s <;> rfl

theorem get_set_self (st : Settings) (s : Setting) (v : s.Value) :
    (st.set s v).get s = some v := by
  cases s <;> rfl

theorem get_set_of_ne (st : Settings) {s s' : Setting} (h : s' ≠ s) (v : s.Value) :
    (st.set s v).get s' = st.get s' := by
  cases s <;> cases s' <;> first | rfl | exact absurd rfl h

theorem ext_get {st st' : Settings} (h : ∀ s, st.get s = st'.get s) : st = st' := by
  obtain ⟨extensions, policy, dirs⟩ := st
  obtain rfl : extensions = _ := h .extensions
  obtain rfl : policy = _ := h .policy
  obtain rfl : dirs = _ := h .dirs
  rfl

theorem get_toConfig (st : Settings) (s : Setting) :
    st.toConfig.get s = (st.get s).getD (Config.default.get s) := by
  cases s <;> rfl

end Settings

/-! ### Settings that are read -/

theorem toOption_lift {α : Type} (x : Except Fault α) : (lift x).toOption = x.toOption := by
  cases x <;> rfl

theorem toOption_settle {α : Type} (close : Cursor → Cursor) (x : Except Failure α) :
    (settle close x).toOption = x.toOption := by
  cases x with
  | error f => cases f <;> rfl
  | ok a => rfl

theorem toOption_readExtensions (before : Blanks) (t : Spelling) {rest : List Char}
    (hrest : EndsNumber rest) (pos : Position) :
    (readExtensions ⟨before.chars ++ (t.chars ++ rest), pos⟩).toOption =
      (ExtensionSetting.ofSpelling? t).map
        (·, ⟨rest, pos.afterAll (before.chars ++ t.chars)⟩) := by
  rw [readExtensions, toOption_bind, toOption_lift, t.toOption_readValue before innerLevels hrest,
    ExtensionSetting.ofSpelling?]
  cases t.value? innerLevels with
  | none => rfl
  | some v =>
    simp only [Option.map_some, Option.bind_some]
    cases ExtensionSetting.ofJson? v <;> rfl

theorem toOption_policyNamed (name : String) (c : Cursor) :
    (policyNamed name c).toOption = UnknownKindPolicy.ofName? name := by
  rw [policyNamed]
  cases UnknownKindPolicy.ofName? name <;> rfl

/-! ### Policies -/

theorem skipSpace_spelling (ws : Blanks) (t : Spelling) (rest : List Char) (pos : Position) :
    Cursor.skipSpace ⟨ws.chars ++ (t.chars ++ rest), pos⟩ =
      ⟨t.chars ++ rest, pos.afterAll ws.chars⟩ := by
  obtain ⟨x, xs, hx, hspace, -⟩ := t.exists_chars_cons
  rw [Json.skipSpace_blanks, hx, List.cons_append, Cursor.skipSpace_cons hspace]

/-- A policy that is given as a field holds nothing. -/
theorem toOption_readPolicyContent (ws : Blanks) (t : Spelling) (rest : List Char)
    (pos : Position) :
    (readPolicyContent ⟨ws.chars ++ (t.chars ++ rest), pos⟩).toOption =
      match t with
      | .null => some ⟨rest, pos.afterAll (ws.chars ++ t.chars)⟩
      | _ => none := by
  unfold readPolicyContent
  rw [skipSpace_spelling]
  obtain ⟨x, xs, hx, -⟩ := t.exists_chars_cons
  obtain ⟨hnull, -⟩ := Spelling.kind_of_chars hx
  cases t with
  | null =>
    show (lift (Json.readWord ['u', 'l', 'l'] ⟨['u', 'l', 'l'] ++ rest, _⟩)).toOption = _
    rw [Json.readWord_self]
    simp [lift, Spelling.chars]
  | _ =>
    have hn : x ≠ 'n' := fun heq => by cases hnull heq
    simp [hx, hn]

/-- The first field of a policy that is given as an object has to hold nothing, and to be the
last. -/
theorem toOption_readPolicyRest (beforeColon afterColon behind inner : Blanks) (t : Spelling)
    (fields : List (Lead × Spelling × Blanks)) (rest : List Char) (pos : Position) :
    (readPolicyRest ⟨beforeColon.chars ++ ':' :: (afterColon.chars ++ (t.chars ++ (behind.chars ++
        (Spelling.fieldsChars false fields ++ (inner.chars ++ '\x7d' :: rest))))), pos⟩).toOption =
      match t, fields with
      | .null, [] => some ⟨rest, pos.afterAll (beforeColon.chars ++ ':' :: (afterColon.chars ++
          (t.chars ++ (behind.chars ++ (inner.chars ++ ['\x7d'])))))⟩
      | _, _ => none := by
  rw [readPolicyRest, toOption_bind, toOption_lift, Json.readColon_blanks]
  simp only [toOption_ok, Option.bind_some, toOption_bind, toOption_readPolicyContent]
  cases t with
  | null =>
    cases fields with
    | nil =>
      simp only [Option.bind_some, Spelling.fieldsChars, List.nil_append, Json.skipSpace_blanks]
      have hbrace : ∀ pos, Cursor.skipSpace ⟨'\x7d' :: rest, pos⟩ = ⟨'\x7d' :: rest, pos⟩ :=
        fun pos => rfl
      simp [hbrace]
    | cons field fields =>
      simp only [Option.bind_some, Json.skipSpace_blanks]
      rfl
  | _ => rfl

theorem ofSpelling?_policy_field (lead : Lead) (t : Spelling) (behind inner : Blanks)
    (fields : List (Lead × Spelling × Blanks)) :
    UnknownKindPolicy.ofSpelling? (.object ((lead, t, behind) :: fields) inner) =
      (lead.key.content?.bind UnknownKindPolicy.ofName?).bind fun p =>
        match t, fields with
        | .null, [] => some p
        | _, _ => none := by
  cases t <;> cases fields <;> simp [UnknownKindPolicy.ofSpelling?]

/-- Behind the brace of a policy. -/
theorem readPolicy_object (before : Blanks) (fields : List (Lead × Spelling × Blanks))
    (inner : Blanks) (rest : List Char) (pos : Position) :
    readPolicy ⟨before.chars ++ ((Spelling.object fields inner).chars ++ rest), pos⟩ =
      lift (Json.nextKey true ⟨Spelling.fieldsChars true fields ++ (inner.chars ++ '\x7d' :: rest),
        (pos.afterAll before.chars).after '\x7b'⟩) >>= fun read =>
          match read with
          | (none, c) => .error (.ofFault (c.fault .expectedValue))
          | (some name, c) => do
            let p ← policyNamed name c
            return (p, ← readPolicyRest c) := by
  unfold readPolicy
  rw [skipSpace_spelling, Spelling.object_append]
  rfl

/-- A policy that is given as an object. -/
theorem toOption_readPolicy_object (before : Blanks) (fields : List (Lead × Spelling × Blanks))
    (inner : Blanks) (rest : List Char) (pos : Position) :
    (readPolicy ⟨before.chars ++ ((Spelling.object fields inner).chars ++ rest), pos⟩).toOption =
      (UnknownKindPolicy.ofSpelling? (.object fields inner)).map
        (·, ⟨rest, pos.afterAll (before.chars ++ (Spelling.object fields inner).chars)⟩) := by
  rw [readPolicy_object, toOption_bind, toOption_lift]
  cases fields with
  | nil =>
    rw [Spelling.fieldsChars, List.nil_append, Json.nextKey_end]
    rfl
  | cons field fields =>
    obtain ⟨⟨before', key, beforeColon, afterColon⟩, t, behind⟩ := field
    have hkey := Json.toOption_nextKey before' key true (beforeColon.chars ++ ':' ::
      (afterColon.chars ++ (t.chars ++ (behind.chars ++
        (Spelling.fieldsChars false fields ++ (inner.chars ++ '\x7d' :: rest))))))
      ((pos.afterAll before.chars).after '\x7b')
    simp only [Spelling.fieldsChars, Lead.chars, List.append_assoc, List.cons_append]
    -- the reader and the meaning go on with the name and then look at what the field holds
    rw [hkey, ofSpelling?_policy_field]
    cases key.content? with
    | none => rfl
    | some name =>
      simp only [Option.map_some, Option.bind_some, toOption_bind, toOption_policyNamed,
        toOption_readPolicyRest]
      cases UnknownKindPolicy.ofName? name with
      | none => rfl
      | some p =>
        cases t with
        | null =>
          cases fields with
          | nil => simp [Spelling.chars, Spelling.fieldsChars, Lead.chars, separator]
          | cons field fields => rfl
        | _ => rfl

theorem toOption_readPolicy (before : Blanks) (t : Spelling) (rest : List Char) (pos : Position) :
    (readPolicy ⟨before.chars ++ (t.chars ++ rest), pos⟩).toOption =
      (UnknownKindPolicy.ofSpelling? t).map
        (·, ⟨rest, pos.afterAll (before.chars ++ t.chars)⟩) := by
  obtain ⟨x, xs, hx, -⟩ := t.exists_chars_cons
  obtain ⟨-, hquote, -, hbrace⟩ := Spelling.kind_of_chars hx
  cases t with
  | object fields inner => exact toOption_readPolicy_object before fields inner rest pos
  | string q =>
    unfold readPolicy
    rw [skipSpace_spelling]
    show (lift (Json.readString (Cursor.advance ⟨q.chars ++ rest, _⟩)) >>= fun read => do
      return (← policyNamed read.1 read.2, read.2)).toOption = _
    rw [toOption_bind, toOption_lift, Json.toOption_readString, UnknownKindPolicy.ofSpelling?]
    cases q.content? with
    | none => rfl
    | some name =>
      simp only [Option.map_some, Option.bind_some, toOption_bind, toOption_policyNamed]
      cases UnknownKindPolicy.ofName? name with
      | none => rfl
      | some p => simp [Spelling.chars]
  | _ =>
    -- nothing else begins with a quote or a brace
    have hq : x ≠ '"' := by
      intro heq
      obtain ⟨_, hkind⟩ := hquote heq
      cases hkind
    have hb : x ≠ '\x7b' := by
      intro heq
      obtain ⟨_, _, hkind⟩ := hbrace heq
      cases hkind
    unfold readPolicy
    rw [skipSpace_spelling]
    simp [hx, hq, hb, UnknownKindPolicy.ofSpelling?]

/-! ### Directories -/

theorem readDirsFrom_blanks (ws : Blanks) (fuel : Nat) (first : Bool) (done : List Path)
    (cs : List Char) (pos : Position) :
    (readDirsFrom fuel first done ⟨ws.chars ++ cs, pos⟩).toOption =
      (readDirsFrom fuel first done ⟨cs, pos.afterAll ws.chars⟩).toOption := by
  cases fuel with
  | zero => rfl
  | succ fuel => rw [readDirsFrom, readDirsFrom, Json.nextItem_blanks]

theorem toOption_readDirsFrom_item (before : Blanks) (t : Spelling) (fuel : Nat) (first : Bool)
    (done : List Path) (rest : List Char) (pos : Position) :
    (readDirsFrom (fuel + 1) first done
        ⟨separator first ++ (before.chars ++ (t.chars ++ rest)), pos⟩).toOption =
      (Path.ofSpelling? t).bind fun dir =>
        (readDirsFrom fuel false (dir :: done)
          ⟨rest, pos.afterAll (separator first ++ (before.chars ++ t.chars))⟩).toOption := by
  obtain ⟨x, xs, hx, -⟩ := t.exists_chars_cons
  obtain ⟨-, hquote, -⟩ := Spelling.kind_of_chars hx
  rw [readDirsFrom, Spelling.nextItem_chars]
  cases t with
  | string q =>
    show (lift (Json.readString (Cursor.advance ⟨q.chars ++ rest, _⟩)) >>= fun read =>
      readDirsFrom fuel false (⟨read.1⟩ :: done) read.2).toOption = _
    rw [toOption_bind, toOption_lift, Json.toOption_readString, Path.ofSpelling?]
    cases q.content? with
    | none => rfl
    | some name => simp [Spelling.chars]
  | _ =>
    have hq : x ≠ '"' := by
      intro heq
      obtain ⟨_, hkind⟩ := hquote heq
      cases hkind
    simp [toOption_bind, toOption_lift, hx, hq, Path.ofSpelling?]

theorem toOption_readDirsFrom (items : List (Blanks × Spelling × Blanks)) (inner : Blanks)
    {fuel : Nat} {first : Bool} {done : List Path} {rest : List Char} (pos : Position)
    (h : (Spelling.itemsChars first items ++ (inner.chars ++ [']'])).length ≤ fuel) :
    (readDirsFrom fuel first done
        ⟨Spelling.itemsChars first items ++ (inner.chars ++ ']' :: rest), pos⟩).toOption =
      (items.mapM fun item => Path.ofSpelling? item.2.1).map fun dirs =>
        (done.reverse ++ dirs,
          ⟨rest, pos.afterAll (Spelling.itemsChars first items ++ (inner.chars ++ [']']))⟩) := by
  induction items generalizing fuel first done pos with
  | nil =>
    simp only [Spelling.itemsChars, List.length_append, List.length_cons] at h
    obtain ⟨fuel, rfl⟩ := Nat.exists_eq_add_of_le' (show 1 ≤ fuel by omega)
    rw [Spelling.itemsChars, List.nil_append, readDirsFrom, Json.nextItem_end]
    simp [toOption_bind, toOption_lift]
  | cons item items ih =>
    obtain ⟨before, t, behind⟩ := item
    have ht := t.length_chars_pos
    simp only [Spelling.itemsChars, List.length_append, List.length_cons] at h
    obtain ⟨fuel, rfl⟩ := Nat.exists_eq_add_of_le' (show 1 ≤ fuel by omega)
    have hrounds : (Spelling.itemsChars false items ++ (inner.chars ++ [']'])).length ≤ fuel := by
      simp only [List.length_append, List.length_cons]
      omega
    simp only [Spelling.itemsChars, List.append_assoc]
    rw [toOption_readDirsFrom_item, List.mapM_cons]
    cases hdir : Path.ofSpelling? t with
    | none => rfl
    | some dir =>
      rw [Option.bind_some, readDirsFrom_blanks, ih _ hrounds]
      cases items.mapM fun item => Path.ofSpelling? item.2.1 with
      | none => rfl
      | some dirs => simp

theorem toOption_readDirs (before : Blanks) (t : Spelling) (rest : List Char) (pos : Position) :
    (readDirs ⟨before.chars ++ (t.chars ++ rest), pos⟩).toOption =
      (Path.listOfSpelling? t).map (·, ⟨rest, pos.afterAll (before.chars ++ t.chars)⟩) := by
  obtain ⟨x, xs, hx, -⟩ := t.exists_chars_cons
  obtain ⟨-, -, hbracket, -⟩ := Spelling.kind_of_chars hx
  unfold readDirs
  rw [skipSpace_spelling]
  cases t with
  | array items inner =>
    have hrounds : (Spelling.itemsChars true items ++ (inner.chars ++ [']'])).length ≤
        ((Spelling.array items inner).chars ++ rest).length + 1 := by
      simp only [Spelling.chars, List.length_append, List.length_cons]
      omega
    have hread := @toOption_readDirsFrom items inner _ true [] rest
      ((pos.afterAll before.chars).after '[') hrounds
    rw [Spelling.array_append] at hread ⊢
    refine hread.trans ?_
    simp [Path.listOfSpelling?, Spelling.chars]
  | _ =>
    have hb : x ≠ '[' := by
      intro heq
      obtain ⟨_, _, hkind⟩ := hbracket heq
      cases hkind
    simp [hx, hb, Path.listOfSpelling?]

/-! ### Any setting -/

theorem toOption_readSetting (setting : Setting) (st : Settings) (before : Blanks) (t : Spelling)
    {rest : List Char} (hrest : EndsNumber rest) (pos : Position) :
    (readSetting setting st ⟨before.chars ++ (t.chars ++ rest), pos⟩).toOption =
      (setting.ofSpelling? t).map fun v =>
        (st.set setting v, ⟨rest, pos.afterAll (before.chars ++ t.chars)⟩) := by
  cases setting with
  | extensions =>
    rw [readSetting, toOption_bind, toOption_readExtensions before t hrest, Setting.ofSpelling?]
    cases ExtensionSetting.ofSpelling? t <;> rfl
  | policy =>
    rw [readSetting, toOption_bind, toOption_readPolicy, Setting.ofSpelling?]
    cases UnknownKindPolicy.ofSpelling? t <;> rfl
  | dirs =>
    rw [readSetting, toOption_bind, toOption_readDirs, Setting.ofSpelling?]
    cases Path.listOfSpelling? t <;> rfl

end Config

end LintDiscovery
