/-
Printed values are read back.

`readValue_chars` says: a value that a reader could have given at some level, all of whose numbers
are whole, is read back at this level from its text on one line, whatever stands behind it that
does not go on with a number. So the level needs no slack: brackets are printed as deep as they
were read.

* `readItemsFrom_itemsText` — items still to come are added to those already read;
* `readFieldsFrom_fieldsText` — the same for fields, whose keys have to differ from those already
  read, since a known key would not go to the end.

The induction is on the value. Its rounds are counted by the length of its text, which is enough
because every member has at least one character.
-/
import LintDiscovery.Proofs.KeptValues

namespace LintDiscovery

namespace Json

/-! ### Values without doubles -/

mutual

/-- Whether all numbers in a value are whole. -/
def isWhole : Json → Bool
  | .null => true
  | .bool _ => true
  | .number (.integer _) => true
  | .number (.double _) => false
  | .string _ => true
  | .array items => itemsAreWhole items
  | .object fields => fieldsAreWhole fields

/-- Whether all numbers in a list of values are whole. -/
def itemsAreWhole : List Json → Bool
  | [] => true
  | v :: rest => v.isWhole && itemsAreWhole rest

/-- Whether all numbers in a list of fields are whole. -/
def fieldsAreWhole : List (String × Json) → Bool
  | [] => true
  | (_, v) :: rest => v.isWhole && fieldsAreWhole rest

end

/-! ### What stands around members -/

theorem endsNumber_cons {x : Char} (h : x = ',' ∨ x = ']' ∨ x = '\x7d') (rest : List Char) :
    EndsNumber (x :: rest) := by
  intro y hy
  cases hy
  rcases h with rfl | rfl | rfl <;> decide

/-- What stands before a member: nothing before the first, a comma before the others. -/
def separator (first : Bool) : List Char :=
  if first then [] else [',']

theorem nextItem_separator {x : Char} (hspace : isSpace x = false) (hend : x ≠ ']')
    (first : Bool) (xs : List Char) (pos : Position) :
    nextItem first ⟨separator first ++ x :: xs, pos⟩ =
      .ok (true, ⟨x :: xs, pos.afterAll (separator first)⟩) := by
  cases first with
  | true => simp [nextItem, separator, Cursor.skipSpace_cons hspace]
  | false =>
    have hcomma : Cursor.skipSpace ⟨',' :: x :: xs, pos⟩ = ⟨',' :: x :: xs, pos⟩ := rfl
    simp [nextItem, separator, hcomma, Cursor.skipSpace_cons hspace, hend]

theorem readKey_stringChars (key : String) (rest : List Char) (pos : Position) :
    readKey ⟨stringChars key ++ rest, pos⟩ =
      .ok (some key, ⟨rest, pos.afterAll (stringChars key)⟩) := by
  rw [readKey, readString_stringChars]
  rfl

theorem nextKey_separator (first : Bool) (key : String) (rest : List Char) (pos : Position) :
    nextKey first ⟨separator first ++ (stringChars key ++ rest), pos⟩ =
      .ok (some key, ⟨rest, pos.afterAll (separator first ++ stringChars key)⟩) := by
  cases first with
  | true => exact readKey_stringChars key rest pos
  | false => exact readKey_stringChars key rest (pos.after ',')

theorem readColon_self (rest : List Char) (pos : Position) :
    readColon ⟨':' :: rest, pos⟩ = .ok ⟨rest, pos.after ':'⟩ := rfl

/-! ### Values that are not brackets -/

theorem isSpace_of_isDigit {d : Char} (hd : isDigit d = true) : isSpace d = false := by
  have hblanks : ∀ x ∈ [' ', '\n', '\t', '\r'], isDigit x = false := by
    simp [isDigit]
  have hd' : d ∉ [' ', '\n', '\t', '\r'] := by
    intro hmem
    rw [hblanks d hmem] at hd
    cases hd
  simpa [isSpace, and_assoc] using hd'

/-- No value but a number begins with a digit. -/
theorem ne_of_isDigit {d : Char} (hd : isDigit d = true) :
    d ≠ 'n' ∧ d ≠ 't' ∧ d ≠ 'f' ∧ d ≠ '-' ∧ d ≠ '"' ∧ d ≠ '[' ∧ d ≠ '\x7b' := by
  have hothers : ∀ x ∈ ['n', 't', 'f', '-', '"', '[', '\x7b'], isDigit x = false := by
    simp [isDigit]
  have hd' : d ∉ ['n', 't', 'f', '-', '"', '[', '\x7b'] := by
    intro hmem
    rw [hothers d hmem] at hd
    cases hd
  simpa using hd'

/-- A digit leads to the reader of numbers. -/
theorem readValueFrom_digit {d : Char} (hd : isDigit d = true) (fuel levels : Nat)
    (ds : List Char) (pos : Position) :
    readValueFrom (fuel + 1) levels ⟨d :: ds, pos⟩ =
      (readNumber false ⟨d :: ds, pos⟩ >>= fun read => pure (.number read.1, read.2)) := by
  obtain ⟨hn, ht, hf, hminus, hquote, hbracket, hbrace⟩ := ne_of_isDigit hd
  simp [readValueFrom, Cursor.skipSpace_cons (isSpace_of_isDigit hd), hd]

/-- A whole number is a minus sign and digits, or digits alone. -/
theorem integerChars_cases (n : Int) :
    (n < 0 ∧ Number.integerChars n = '-' :: Nat.toDigits 10 n.natAbs) ∨
      (0 ≤ n ∧ ∃ d ds, Number.integerChars n = d :: ds ∧ isDigit d = true) := by
  rcases Int.lt_or_le n 0 with hneg | hnonneg
  · refine .inl ⟨hneg, ?_⟩
    rw [Number.integerChars, if_pos hneg, List.singleton_append]
  · have hne : Nat.toDigits 10 n.natAbs ≠ [] := Nat.toDigits_ne_nil
    obtain ⟨d, ds, hds⟩ := List.exists_cons_of_ne_nil hne
    have hd : isDigit d = true := isDigit_of_mem_toDigits (hds ▸ List.mem_cons_self)
    refine .inr ⟨hnonneg, d, ds, ?_, hd⟩
    rw [Number.integerChars, if_neg (by omega), List.nil_append, hds]

theorem readValueFrom_integer {n : Int} (hn : InRange (.integer n)) (fuel levels : Nat)
    {rest : List Char} (hrest : EndsNumber rest) (pos : Position) :
    readValueFrom (fuel + 1) levels ⟨Number.integerChars n ++ rest, pos⟩ =
      .ok (.number (.integer n), ⟨rest, pos.afterAll (Number.integerChars n)⟩) := by
  rcases integerChars_cases n with ⟨hneg, hchars⟩ | ⟨hnonneg, d, ds, hchars, hd⟩
  · rw [hchars]
    show (readNumber true ⟨Nat.toDigits 10 n.natAbs ++ rest, pos.after '-'⟩ >>= fun read =>
      pure (Json.number read.1, read.2)) =
        .ok (.number (.integer n), ⟨rest, pos.afterAll ('-' :: Nat.toDigits 10 n.natAbs)⟩)
    rw [readNumber_neg hn hneg hrest]
    rfl
  · have hread := readNumber_nonneg hn hnonneg hrest pos
    rw [hchars, List.cons_append] at hread ⊢
    rw [readValueFrom_digit hd, hread]
    rfl

theorem readValueFrom_string (s : String) (fuel levels : Nat) (rest : List Char)
    (pos : Position) :
    readValueFrom (fuel + 1) levels ⟨stringChars s ++ rest, pos⟩ =
      .ok (.string s, ⟨rest, pos.afterAll (stringChars s)⟩) := by
  show (readString (Cursor.advance ⟨stringChars s ++ rest, pos⟩) >>= fun read =>
    pure (Json.string read.1, read.2)) = .ok (.string s, ⟨rest, pos.afterAll (stringChars s)⟩)
  rw [readString_stringChars]
  rfl

/-- A word whose first letter has been passed stands for its value. -/
theorem readWord_value (v : Json) (word rest : List Char) (pos : Position) :
    (do return (v, ← readWord word ⟨word ++ rest, pos⟩)) =
      Except.ok (ε := Fault) (v, (⟨rest, pos.afterAll word⟩ : Cursor)) := by
  rw [readWord_self]
  rfl

/-! ### Members -/

theorem readValueFrom_bracket {levels : Nat} (deep : 1 < levels) (fuel : Nat) (cs : List Char)
    (pos : Position) :
    readValueFrom (fuel + 1) levels ⟨'[' :: cs, pos⟩ =
      readItemsFrom fuel (levels - 1) true [] ⟨cs, pos.after '['⟩ := by
  show (if levels ≤ 1 then .error ⟨.tooDeep, pos.intoChar '['⟩
    else readItemsFrom fuel (levels - 1) true [] ⟨cs, pos.after '['⟩) = _
  exact if_neg (by omega)

theorem readValueFrom_brace {levels : Nat} (deep : 1 < levels) (fuel : Nat) (cs : List Char)
    (pos : Position) :
    readValueFrom (fuel + 1) levels ⟨'\x7b' :: cs, pos⟩ =
      readFieldsFrom fuel (levels - 1) true [] ⟨cs, pos.after '\x7b'⟩ := by
  show (if levels ≤ 1 then .error ⟨.tooDeep, pos.intoChar '\x7b'⟩
    else readFieldsFrom fuel (levels - 1) true [] ⟨cs, pos.after '\x7b'⟩) = _
  exact if_neg (by omega)

theorem readItemsFrom_item {fuel levels : Nat} {first : Bool} {done : List Json}
    {c c₁ c₂ : Cursor} {v : Json} (hnext : nextItem first c = .ok (true, c₁))
    (hread : readValueFrom fuel levels c₁ = .ok (v, c₂)) :
    readItemsFrom (fuel + 1) levels first done c =
      readItemsFrom fuel levels false (v :: done) c₂ := by
  rw [readItemsFrom, hnext]
  simp only [hread]

theorem readFieldsFrom_field {fuel levels : Nat} {first : Bool} {done : List (String × Json)}
    {c c₁ c₂ c₃ : Cursor} {key : String} {v : Json}
    (hnext : nextKey first c = .ok (some key, c₁)) (hcolon : readColon c₁ = .ok c₂)
    (hread : readValueFrom fuel levels c₂ = .ok (v, c₃)) (hnew : key ∉ done.map Prod.fst) :
    readFieldsFrom (fuel + 1) levels first done c =
      readFieldsFrom fuel levels false (done ++ [(key, v)]) c₃ := by
  rw [readFieldsFrom, hnext]
  simp only [hcolon, hread, insert_of_new hnew]

/-- The text of a value begins with a character that is no blank and no end of an array. -/
theorem exists_chars_cons {v : Json} (h : v.isWhole = true) :
    ∃ x xs, v.chars = x :: xs ∧ isSpace x = false ∧ x ≠ ']' := by
  cases v with
  | null => exact ⟨_, _, rfl, by decide, by decide⟩
  | bool b => cases b <;> exact ⟨_, _, rfl, by decide, by decide⟩
  | string s => exact ⟨_, _, rfl, by decide, by decide⟩
  | array items => exact ⟨_, _, rfl, by decide, by decide⟩
  | object fields => exact ⟨_, _, rfl, by decide, by decide⟩
  | number n =>
    cases n with
    | double d => cases h
    | integer n =>
      rcases integerChars_cases n with ⟨-, hchars⟩ | ⟨-, d, ds, hchars, hd⟩
      · exact ⟨_, _, hchars, by decide, by decide⟩
      · refine ⟨d, ds, hchars, isSpace_of_isDigit hd, ?_⟩
        rintro rfl
        cases hd

theorem length_chars_pos {v : Json} (h : v.isWhole = true) : 0 < v.chars.length := by
  obtain ⟨x, xs, hx, -⟩ := exists_chars_cons h
  simp [hx]

theorem nextItem_chars {v : Json} (h : v.isWhole = true) (first : Bool) (rest : List Char)
    (pos : Position) :
    nextItem first ⟨separator first ++ (v.chars ++ rest), pos⟩ =
      .ok (true, ⟨v.chars ++ rest, pos.afterAll (separator first)⟩) := by
  obtain ⟨x, xs, hx, hspace, hend⟩ := exists_chars_cons h
  rw [hx, List.cons_append]
  exact nextItem_separator hspace hend first (xs ++ rest) pos

/-- Items and the closing bracket, the first of them with or without a comma. -/
def itemsText (first : Bool) : List Json → List Char
  | [] => [']']
  | v :: rest => separator first ++ (v.chars ++ moreItemChars rest)

theorem itemsText_true (items : List Json) : itemsText true items = itemChars items := by
  cases items <;> rfl

theorem itemsText_false (items : List Json) : itemsText false items = moreItemChars items := by
  cases items <;> rfl

/-- Fields and the closing brace, the first of them with or without a comma. -/
def fieldsText (first : Bool) : List (String × Json) → List Char
  | [] => ['\x7d']
  | (key, v) :: rest =>
    separator first ++ (stringChars key ++ ':' :: (v.chars ++ moreFieldChars rest))

theorem fieldsText_true (fields : List (String × Json)) :
    fieldsText true fields = fieldChars fields := by
  cases fields <;> simp [fieldsText, fieldChars, separator]

theorem fieldsText_false (fields : List (String × Json)) :
    fieldsText false fields = moreFieldChars fields := by
  cases fields <;> simp [fieldsText, moreFieldChars, separator]

theorem endsNumber_moreItemChars (items : List Json) (rest : List Char) :
    EndsNumber (moreItemChars items ++ rest) := by
  cases items with
  | nil => exact endsNumber_cons (by simp) _
  | cons v items => exact endsNumber_cons (by simp) _

theorem endsNumber_moreFieldChars (fields : List (String × Json)) (rest : List Char) :
    EndsNumber (moreFieldChars fields ++ rest) := by
  cases fields with
  | nil => exact endsNumber_cons (by simp) _
  | cons f fields => exact endsNumber_cons (by simp) _

theorem length_moreItemChars_pos (items : List Json) : 0 < (moreItemChars items).length := by
  cases items <;> simp [moreItemChars]

/-! ### Values of any depth -/

-- The three statements are proved together, by recursion on the value, its items and its fields.
-- Each counts rounds by the length of its text; the texts of the members leave one round over.
mutual

theorem readValueFrom_chars : ∀ (v : Json) {fuel levels : Nat} {rest : List Char}
    (pos : Position), Kept levels v → v.isWhole = true → v.chars.length ≤ fuel →
    EndsNumber rest →
    readValueFrom fuel levels ⟨v.chars ++ rest, pos⟩ = .ok (v, ⟨rest, pos.afterAll v.chars⟩)
  | v, 0, _, _, _, _, hwhole, hfuel, _ => by
    have := length_chars_pos hwhole
    omega
  | .null, fuel + 1, levels, rest, pos, _, _, _, _ =>
    readWord_value .null ['u', 'l', 'l'] rest (pos.after 'n')
  | .bool true, fuel + 1, levels, rest, pos, _, _, _, _ =>
    readWord_value (.bool true) ['r', 'u', 'e'] rest (pos.after 't')
  | .bool false, fuel + 1, levels, rest, pos, _, _, _, _ =>
    readWord_value (.bool false) ['a', 'l', 's', 'e'] rest (pos.after 'f')
  | .number (.integer n), fuel + 1, levels, rest, pos, hkept, _, _, hrest => by
    cases hkept with
    | number fits => exact readValueFrom_integer fits fuel levels hrest pos
  | .number (.double d), _, _, _, _, _, hwhole, _, _ => by cases hwhole
  | .string s, fuel + 1, levels, rest, pos, _, _, _, _ =>
    readValueFrom_string s fuel levels rest pos
  | .array items, fuel + 1, levels, rest, pos, hkept, hwhole, hfuel, _ => by
    cases hkept with
    | array deep kept =>
      have hchars : (Json.array items).chars = '[' :: itemsText true items := by
        rw [chars, itemsText_true]
      rw [hchars, List.length_cons] at hfuel
      have hrounds : (itemsText true items).length ≤ fuel := by omega
      rw [hchars, List.cons_append, readValueFrom_bracket deep,
        readItemsFrom_itemsText items _ kept hwhole hrounds]
      rfl
  | .object fields, fuel + 1, levels, rest, pos, hkept, hwhole, hfuel, _ => by
    cases hkept with
    | object deep distinct kept =>
      have hchars : (Json.object fields).chars = '\x7b' :: fieldsText true fields := by
        rw [chars, fieldsText_true]
      rw [hchars, List.length_cons] at hfuel
      have hrounds : (fieldsText true fields).length ≤ fuel := by omega
      have hdistinct : (([] ++ fields).map Prod.fst).Nodup := distinct
      rw [hchars, List.cons_append, readValueFrom_brace deep,
        readFieldsFrom_fieldsText fields _ hdistinct kept hwhole hrounds]
      rfl

/-- Items still to come are added to those already read. -/
theorem readItemsFrom_itemsText : ∀ (items : List Json) {fuel levels : Nat} {first : Bool}
    {done : List Json} {rest : List Char} (pos : Position), (∀ v ∈ items, Kept levels v) →
    itemsAreWhole items = true → (itemsText first items).length ≤ fuel →
    readItemsFrom fuel levels first done ⟨itemsText first items ++ rest, pos⟩ =
      .ok (.array (done.reverse ++ items), ⟨rest, pos.afterAll (itemsText first items)⟩)
  | [], fuel, levels, first, done, rest, pos, _, _, hfuel => by
    obtain ⟨fuel, rfl⟩ := Nat.exists_eq_add_of_le'
      (show 1 ≤ fuel by simpa [itemsText] using hfuel)
    rw [List.append_nil]
    rfl
  | v :: items, fuel, levels, first, done, rest, pos, hkept, hwhole, hfuel => by
    rw [itemsAreWhole, Bool.and_eq_true] at hwhole
    -- the item and what follows it have a character each, so both have rounds enough
    have hitem := length_chars_pos hwhole.1
    have hmore := length_moreItemChars_pos items
    simp only [itemsText, List.length_append] at hfuel
    obtain ⟨fuel, rfl⟩ := Nat.exists_eq_add_of_le' (show 1 ≤ fuel by omega)
    have hnext := nextItem_chars hwhole.1 first (moreItemChars items ++ rest) pos
    have hread : readValueFrom fuel levels
        ⟨v.chars ++ (moreItemChars items ++ rest), pos.afterAll (separator first)⟩ =
          .ok (v, ⟨moreItemChars items ++ rest, (pos.afterAll (separator first)).afterAll v.chars⟩) :=
      readValueFrom_chars v _ (hkept v List.mem_cons_self) hwhole.1 (by omega)
        (endsNumber_moreItemChars items rest)
    have hrounds : (itemsText false items).length ≤ fuel := by
      rw [itemsText_false]
      omega
    have hkept' : ∀ w ∈ items, Kept levels w := fun w hw => hkept w (List.mem_cons_of_mem v hw)
    simp only [itemsText, List.append_assoc]
    rw [readItemsFrom_item hnext hread, ← itemsText_false,
      readItemsFrom_itemsText items _ hkept' hwhole.2 hrounds]
    simp

/-- Fields still to come are added to those already read, if no key is twice. -/
theorem readFieldsFrom_fieldsText : ∀ (fields : List (String × Json)) {fuel levels : Nat}
    {first : Bool} {done : List (String × Json)} {rest : List Char} (pos : Position),
    ((done ++ fields).map Prod.fst).Nodup → (∀ f ∈ fields, Kept levels f.2) →
    fieldsAreWhole fields = true → (fieldsText first fields).length ≤ fuel →
    readFieldsFrom fuel levels first done ⟨fieldsText first fields ++ rest, pos⟩ =
      .ok (.object (done ++ fields), ⟨rest, pos.afterAll (fieldsText first fields)⟩)
  | [], fuel, levels, first, done, rest, pos, _, _, _, hfuel => by
    obtain ⟨fuel, rfl⟩ := Nat.exists_eq_add_of_le'
      (show 1 ≤ fuel by simpa [fieldsText] using hfuel)
    rw [List.append_nil]
    rfl
  | (key, v) :: fields, fuel, levels, first, done, rest, pos, hdistinct, hkept, hwhole, hfuel => by
    rw [fieldsAreWhole, Bool.and_eq_true] at hwhole
    simp only [fieldsText, List.length_append, List.length_cons] at hfuel
    obtain ⟨fuel, rfl⟩ := Nat.exists_eq_add_of_le' (show 1 ≤ fuel by omega)
    have hnew : key ∉ done.map Prod.fst := by
      rw [List.map_append, List.nodup_append] at hdistinct
      exact fun hmem => hdistinct.2.2 key hmem key List.mem_cons_self rfl
    have hnext := nextKey_separator first key
      (':' :: (v.chars ++ (moreFieldChars fields ++ rest))) pos
    have hcolon := readColon_self (v.chars ++ (moreFieldChars fields ++ rest))
      (pos.afterAll (separator first ++ stringChars key))
    have hread : readValueFrom fuel levels ⟨v.chars ++ (moreFieldChars fields ++ rest),
        (pos.afterAll (separator first ++ stringChars key)).after ':'⟩ =
          .ok (v, ⟨moreFieldChars fields ++ rest,
            ((pos.afterAll (separator first ++ stringChars key)).after ':').afterAll v.chars⟩) :=
      readValueFrom_chars v _ (hkept _ List.mem_cons_self) hwhole.1 (by omega)
        (endsNumber_moreFieldChars fields rest)
    have hrounds : (fieldsText false fields).length ≤ fuel := by
      rw [fieldsText_false]
      omega
    have hdistinct' : ((done ++ [(key, v)] ++ fields).map Prod.fst).Nodup := by
      simpa using hdistinct
    have hkept' : ∀ f ∈ fields, Kept levels f.2 := fun f hf =>
      hkept f (List.mem_cons_of_mem (key, v) hf)
    simp only [fieldsText, List.append_assoc, List.cons_append]
    rw [readFieldsFrom_field hnext hcolon hread hnew, ← fieldsText_false,
      readFieldsFrom_fieldsText fields _ hdistinct' hkept' hwhole.2 hrounds]
    simp

end

/-- A kept value without doubles is read back with as many levels as it was read with. -/
theorem readValue_chars {v : Json} {levels : Nat} (hkept : Kept levels v)
    (hwhole : v.isWhole = true) {rest : List Char} (hrest : EndsNumber rest) (pos : Position) :
    readValue levels ⟨v.chars ++ rest, pos⟩ = .ok (v, ⟨rest, pos.afterAll v.chars⟩) := by
  refine readValueFrom_chars v pos hkept hwhole ?_ hrest
  rw [List.length_append]
  omega

end Json

end LintDiscovery
