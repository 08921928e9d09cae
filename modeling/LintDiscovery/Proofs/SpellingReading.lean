/-
Spelled values that are read.

* `nextItem_chars`, `toOption_nextKey` — what stands before an item and before a field;
* `Spelling.toOption_readValue` — values of any depth.

The induction over values is the one of their spelling. It counts rounds by the length of the text,
which is enough because every member has at least one character. The text behind a value is any that
does not go on with a number: behind an item or a field comes a comma or the closing bracket.
-/
import LintDiscovery.Proofs.SpellingLiterals

namespace LintDiscovery

namespace Json

/-! ### What stands around members -/

theorem nextItem_blanks (ws : Blanks) (first : Bool) (cs : List Char) (pos : Position) :
    nextItem first ⟨ws.chars ++ cs, pos⟩ = nextItem first ⟨cs, pos.afterAll ws.chars⟩ := by
  unfold nextItem
  rw [skipSpace_blanks]

theorem nextItem_member (before : Blanks) {x : Char} (hspace : isSpace x = false) (hend : x ≠ ']')
    (first : Bool) (xs : List Char) (pos : Position) :
    nextItem first ⟨separator first ++ (before.chars ++ x :: xs), pos⟩ =
      .ok (true, ⟨x :: xs, pos.afterAll (separator first ++ before.chars)⟩) := by
  have hskip : ∀ pos, Cursor.skipSpace ⟨before.chars ++ x :: xs, pos⟩ =
      ⟨x :: xs, pos.afterAll before.chars⟩ := fun pos => by
    rw [skipSpace_blanks, Cursor.skipSpace_cons hspace]
  cases first with
  | true => simp [nextItem, separator, hskip]
  | false =>
    have hcomma : Cursor.skipSpace ⟨',' :: (before.chars ++ x :: xs), pos⟩ =
        ⟨',' :: (before.chars ++ x :: xs), pos⟩ := rfl
    simp [nextItem, separator, hcomma, hskip, hend]

theorem nextItem_end (inner : Blanks) (first : Bool) (rest : List Char) (pos : Position) :
    nextItem first ⟨inner.chars ++ ']' :: rest, pos⟩ =
      .ok (false, ⟨rest, pos.afterAll (inner.chars ++ [']'])⟩) := by
  rw [nextItem_blanks, Position.afterAll_append]
  rfl

theorem nextKey_blanks (ws : Blanks) (first : Bool) (cs : List Char) (pos : Position) :
    nextKey first ⟨ws.chars ++ cs, pos⟩ = nextKey first ⟨cs, pos.afterAll ws.chars⟩ := by
  unfold nextKey
  rw [skipSpace_blanks]

theorem nextKey_member (before : Blanks) (q : Quotation) (first : Bool) (rest : List Char)
    (pos : Position) :
    nextKey first ⟨separator first ++ (before.chars ++ (q.chars ++ rest)), pos⟩ =
      readKey ⟨q.chars ++ rest, pos.afterAll (separator first ++ before.chars)⟩ := by
  have hskip : ∀ pos, Cursor.skipSpace ⟨before.chars ++ (q.chars ++ rest), pos⟩ =
      ⟨q.chars ++ rest, pos.afterAll before.chars⟩ := fun pos => by
    rw [skipSpace_blanks]
    rfl
  cases first with
  | true =>
    unfold nextKey
    simp only [separator, if_true, List.nil_append, hskip]
    rfl
  | false =>
    have hcomma : Cursor.skipSpace ⟨',' :: (before.chars ++ (q.chars ++ rest)), pos⟩ =
        ⟨',' :: (before.chars ++ (q.chars ++ rest)), pos⟩ := rfl
    unfold nextKey
    simp only [separator, Bool.false_eq_true, if_false, List.singleton_append, hcomma,
      Cursor.advance_cons, hskip]
    rfl

theorem toOption_nextKey (before : Blanks) (q : Quotation) (first : Bool) (rest : List Char)
    (pos : Position) :
    (nextKey first ⟨separator first ++ (before.chars ++ (q.chars ++ rest)), pos⟩).toOption =
      q.content?.map fun key =>
        (some key, ⟨rest, pos.afterAll (separator first ++ (before.chars ++ q.chars))⟩) := by
  rw [nextKey_member, readKey, toOption_bind, toOption_readString]
  cases q.content? with
  | none => rfl
  | some key => simp

theorem nextKey_end (inner : Blanks) (first : Bool) (rest : List Char) (pos : Position) :
    nextKey first ⟨inner.chars ++ '\x7d' :: rest, pos⟩ =
      .ok (none, ⟨rest, pos.afterAll (inner.chars ++ ['\x7d'])⟩) := by
  rw [nextKey_blanks, Position.afterAll_append]
  rfl

theorem readColon_blanks (ws : Blanks) (rest : List Char) (pos : Position) :
    readColon ⟨ws.chars ++ ':' :: rest, pos⟩ =
      .ok ⟨rest, pos.afterAll (ws.chars ++ [':'])⟩ := by
  unfold readColon
  rw [skipSpace_blanks, Position.afterAll_append]
  rfl

/-! ### Values -/

theorem readValueFrom_blanks (ws : Blanks) (fuel levels : Nat) (cs : List Char) (pos : Position) :
    (readValueFrom fuel levels ⟨ws.chars ++ cs, pos⟩).toOption =
      (readValueFrom fuel levels ⟨cs, pos.afterAll ws.chars⟩).toOption := by
  cases fuel with
  | zero => rfl
  | succ fuel =>
    rw [readValueFrom, readValueFrom, skipSpace_blanks]

theorem readItemsFrom_blanks (ws : Blanks) (fuel levels : Nat) (first : Bool) (done : List Json)
    (cs : List Char) (pos : Position) :
    (readItemsFrom fuel levels first done ⟨ws.chars ++ cs, pos⟩).toOption =
      (readItemsFrom fuel levels first done ⟨cs, pos.afterAll ws.chars⟩).toOption := by
  cases fuel with
  | zero => rfl
  | succ fuel => rw [readItemsFrom, readItemsFrom, nextItem_blanks]

theorem readFieldsFrom_blanks (ws : Blanks) (fuel levels : Nat) (first : Bool)
    (done : List (String × Json)) (cs : List Char) (pos : Position) :
    (readFieldsFrom fuel levels first done ⟨ws.chars ++ cs, pos⟩).toOption =
      (readFieldsFrom fuel levels first done ⟨cs, pos.afterAll ws.chars⟩).toOption := by
  cases fuel with
  | zero => rfl
  | succ fuel => rw [readFieldsFrom, readFieldsFrom, nextKey_blanks]

theorem toOption_readItemsFrom_member {first : Bool} {c c₁ : Cursor}
    (hnext : nextItem first c = .ok (true, c₁)) (fuel levels : Nat) (done : List Json) :
    (readItemsFrom (fuel + 1) levels first done c).toOption =
      (readValueFrom fuel levels c₁).toOption.bind fun (v, c₂) =>
        (readItemsFrom fuel levels false (v :: done) c₂).toOption := by
  rw [readItemsFrom, hnext]
  simp only
  cases readValueFrom fuel levels c₁ <;> rfl

theorem toOption_readFieldsFrom_member {first : Bool} {c c₁ c₂ : Cursor} {key? : Option String}
    (hnext : (nextKey first c).toOption = key?.map fun key => (some key, c₁))
    (hcolon : readColon c₁ = .ok c₂) (fuel levels : Nat) (done : List (String × Json)) :
    (readFieldsFrom (fuel + 1) levels first done c).toOption =
      key?.bind fun key =>
        (readValueFrom fuel levels c₂).toOption.bind fun (v, c₃) =>
          (readFieldsFrom fuel levels false (insert key v done) c₃).toOption := by
  rw [readFieldsFrom]
  cases hkey : nextKey first c with
  | error f =>
    rw [hkey] at hnext
    cases key? <;> simp_all
  | ok next =>
    rw [hkey] at hnext
    cases key? with
    | none => cases hnext
    | some key =>
      cases hnext
      simp only [hcolon, Option.bind_some]
      cases readValueFrom fuel levels c₂ <;> rfl

namespace Spelling

theorem nextItem_chars (before : Blanks) (t : Spelling) (first : Bool) (rest : List Char)
    (pos : Position) :
    nextItem first ⟨separator first ++ (before.chars ++ (t.chars ++ rest)), pos⟩ =
      .ok (true, ⟨t.chars ++ rest, pos.afterAll (separator first ++ before.chars)⟩) := by
  obtain ⟨x, xs, hx, hspace, hend⟩ := t.exists_chars_cons
  rw [hx, List.cons_append]
  exact nextItem_member before hspace hend first (xs ++ rest) pos

/-- The items of an array as they end, behind which no number goes on. -/
theorem endsNumber_items (items : List (Blanks × Spelling × Blanks)) (inner : Blanks)
    (rest : List Char) :
    EndsNumber (itemsChars false items ++ (inner.chars ++ ']' :: rest)) := by
  cases items with
  | nil => exact endsNumber_blanks inner (endsNumber_cons (by simp) rest)
  | cons item items => exact endsNumber_cons (by simp) _

theorem endsNumber_fields (fields : List (Lead × Spelling × Blanks)) (inner : Blanks)
    (rest : List Char) :
    EndsNumber (fieldsChars false fields ++ (inner.chars ++ '\x7d' :: rest)) := by
  cases fields with
  | nil => exact endsNumber_blanks inner (endsNumber_cons (by simp) rest)
  | cons field fields => exact endsNumber_cons (by simp) _

theorem toOption_readValueFrom_number (n : Numeral) (fuel levels : Nat) {rest : List Char}
    (hrest : EndsNumber rest) (pos : Position) :
    (readValueFrom (fuel + 1) levels ⟨n.chars ++ rest, pos⟩).toOption =
      (n.value?.map Json.number).map (·, ⟨rest, pos.afterAll n.chars⟩) := by
  -- the same digits are read behind a sign and without one
  have hmap : ∀ (x : Except Fault (Number × Cursor)) (c : Cursor),
      x.toOption = n.value?.map (·, c) →
      (x >>= fun read => pure (Json.number read.1, read.2)).toOption =
        (n.value?.map Json.number).map (·, c) := by
    intro x c hx
    rw [toOption_bind, hx]
    cases n.value? <;> rfl
  have hread := n.toOption_readNumber hrest
  rw [Numeral.chars]
  cases hn : n.negative with
  | true =>
    rw [hn] at hread
    exact hmap _ _ (hread (pos.after '-'))
  | false =>
    rw [hn] at hread
    obtain ⟨d, ds, hds, hd⟩ := n.exists_magnitude_cons
    have := hmap _ _ (hread pos)
    rw [hds, List.cons_append] at this
    simp only [Bool.false_eq_true, if_false, List.nil_append, hds, List.cons_append]
    rw [readValueFrom_digit hd]
    exact this

mutual

theorem toOption_readValueFrom : ∀ (t : Spelling) {fuel levels : Nat} {rest : List Char}
    (pos : Position), t.chars.length ≤ fuel → EndsNumber rest →
    (readValueFrom fuel levels ⟨t.chars ++ rest, pos⟩).toOption =
      (t.value? levels).map (·, ⟨rest, pos.afterAll t.chars⟩)
  | t, 0, _, _, _, hfuel, _ => by
    -- there is a round for every value, since none is without characters
    have := t.length_chars_pos
    omega
  | .null, fuel + 1, levels, rest, pos, _, _ =>
    congrArg Except.toOption (readWord_value .null ['u', 'l', 'l'] rest (pos.after 'n'))
  | .bool true, fuel + 1, levels, rest, pos, _, _ =>
    congrArg Except.toOption (readWord_value (.bool true) ['r', 'u', 'e'] rest (pos.after 't'))
  | .bool false, fuel + 1, levels, rest, pos, _, _ =>
    congrArg Except.toOption
      (readWord_value (.bool false) ['a', 'l', 's', 'e'] rest (pos.after 'f'))
  | .number n, fuel + 1, levels, rest, pos, _, hrest => by
    rw [chars, value?]
    exact toOption_readValueFrom_number n fuel levels hrest pos
  | .string q, fuel + 1, levels, rest, pos, _, _ => by
    rw [chars, value?]
    show (readString (Cursor.advance ⟨q.chars ++ rest, pos⟩) >>= fun read =>
      pure (Json.string read.1, read.2)).toOption = _
    rw [toOption_bind, toOption_readString]
    cases q.content? <;> rfl
  | .array items inner, fuel + 1, levels, rest, pos, hfuel, _ => by
    rw [chars, List.length_cons] at hfuel
    rw [chars, value?, List.cons_append]
    by_cases hdeep : levels ≤ 1
    · have hread : readValueFrom (fuel + 1) levels
          ⟨'[' :: (itemsChars true items ++ (inner.chars ++ [']']) ++ rest), pos⟩ =
          .error ⟨.tooDeep, pos.intoChar '['⟩ := if_pos hdeep
      rw [hread, if_pos hdeep]
      rfl
    · have hrounds : (itemsChars true items ++ (inner.chars ++ [']'])).length ≤ fuel := by omega
      rw [readValueFrom_bracket (by omega), if_neg hdeep, List.append_assoc, List.append_assoc,
        List.singleton_append, toOption_readItemsFrom items inner _ hrounds, Option.map_map]
      rfl
  | .object fields inner, fuel + 1, levels, rest, pos, hfuel, _ => by
    rw [chars, List.length_cons] at hfuel
    rw [chars, value?, List.cons_append]
    by_cases hdeep : levels ≤ 1
    · have hread : readValueFrom (fuel + 1) levels
          ⟨'\x7b' :: (fieldsChars true fields ++ (inner.chars ++ ['\x7d']) ++ rest), pos⟩ =
          .error ⟨.tooDeep, pos.intoChar '\x7b'⟩ := if_pos hdeep
      rw [hread, if_pos hdeep]
      rfl
    · have hrounds : (fieldsChars true fields ++ (inner.chars ++ ['\x7d'])).length ≤ fuel := by
        omega
      rw [readValueFrom_brace (by omega), if_neg hdeep, List.append_assoc, List.append_assoc,
        List.singleton_append, toOption_readFieldsFrom fields inner _ hrounds, Option.map_map]
      rfl

/-- Items still to come are added to those already read. -/
theorem toOption_readItemsFrom : ∀ (items : List (Blanks × Spelling × Blanks)) (inner : Blanks)
    {fuel levels : Nat} {first : Bool} {done : List Json} {rest : List Char} (pos : Position),
    (itemsChars first items ++ (inner.chars ++ [']'])).length ≤ fuel →
    (readItemsFrom fuel levels first done
        ⟨itemsChars first items ++ (inner.chars ++ ']' :: rest), pos⟩).toOption =
      (itemValues? levels items).map fun vs =>
        (.array (done.reverse ++ vs),
          ⟨rest, pos.afterAll (itemsChars first items ++ (inner.chars ++ [']']))⟩)
  | [], inner, fuel, levels, first, done, rest, pos, hfuel => by
    simp only [itemsChars, List.length_append, List.length_cons] at hfuel
    obtain ⟨fuel, rfl⟩ := Nat.exists_eq_add_of_le' (show 1 ≤ fuel by omega)
    rw [itemsChars, List.nil_append, readItemsFrom, nextItem_end, itemValues?]
    simp
  | (before, t, behind) :: items, inner, fuel, levels, first, done, rest, pos, hfuel => by
    have ht := t.length_chars_pos
    simp only [itemsChars, List.length_append, List.length_cons] at hfuel
    obtain ⟨fuel, rfl⟩ := Nat.exists_eq_add_of_le' (show 1 ≤ fuel by omega)
    -- the round that passes the comma is one that neither the value nor the other items need
    have hnext := nextItem_chars before t first
      (behind.chars ++ (itemsChars false items ++ (inner.chars ++ ']' :: rest))) pos
    have hread := fun pos => @toOption_readValueFrom t fuel levels _ pos (by omega)
      (endsNumber_blanks behind (endsNumber_items items inner rest))
    have hmore : ∀ v pos, (readItemsFrom fuel levels false (v :: done)
        ⟨behind.chars ++ (itemsChars false items ++ (inner.chars ++ ']' :: rest)), pos⟩).toOption =
          (itemValues? levels items).map fun vs =>
            (.array ((v :: done).reverse ++ vs), ⟨rest, (pos.afterAll behind.chars).afterAll
              (itemsChars false items ++ (inner.chars ++ [']']))⟩) := by
      intro v pos
      rw [readItemsFrom_blanks]
      refine toOption_readItemsFrom items inner _ ?_
      simp only [List.length_append, List.length_cons]
      omega
    simp only [itemsChars, List.append_assoc]
    rw [toOption_readItemsFrom_member hnext, hread, itemValues?]
    cases t.value? levels with
    | none => rfl
    | some v =>
      simp only [Option.map_some, Option.bind_some, hmore, Option.map_map, Function.comp_def]
      simp

/-- Fields still to come are set one after the other. -/
theorem toOption_readFieldsFrom : ∀ (fields : List (Lead × Spelling × Blanks)) (inner : Blanks)
    {fuel levels : Nat} {first : Bool} {done : List (String × Json)} {rest : List Char}
    (pos : Position), (fieldsChars first fields ++ (inner.chars ++ ['\x7d'])).length ≤ fuel →
    (readFieldsFrom fuel levels first done
        ⟨fieldsChars first fields ++ (inner.chars ++ '\x7d' :: rest), pos⟩).toOption =
      (fieldValues? levels fields).map fun pairs =>
        (.object (pairs.foldl (fun done f => insert f.1 f.2 done) done),
          ⟨rest, pos.afterAll (fieldsChars first fields ++ (inner.chars ++ ['\x7d']))⟩)
  | [], inner, fuel, levels, first, done, rest, pos, hfuel => by
    simp only [fieldsChars, List.length_append, List.length_cons] at hfuel
    obtain ⟨fuel, rfl⟩ := Nat.exists_eq_add_of_le' (show 1 ≤ fuel by omega)
    rw [fieldsChars, List.nil_append, readFieldsFrom, nextKey_end, fieldValues?]
    simp
  | (⟨before, key, beforeColon, afterColon⟩, t, behind) :: fields, inner, fuel, levels, first,
      done, rest, pos, hfuel => by
    have ht := t.length_chars_pos
    simp only [fieldsChars, Lead.chars, List.length_append, List.length_cons] at hfuel
    obtain ⟨fuel, rfl⟩ := Nat.exists_eq_add_of_le' (show 1 ≤ fuel by omega)
    have hread := fun pos => @toOption_readValueFrom t fuel levels _ pos (by omega)
      (endsNumber_blanks behind (endsNumber_fields fields inner rest))
    have hmore : ∀ done pos, (readFieldsFrom fuel levels false done
        ⟨behind.chars ++ (fieldsChars false fields ++ (inner.chars ++ '\x7d' :: rest)),
          pos⟩).toOption =
        (fieldValues? levels fields).map fun pairs =>
          (.object (pairs.foldl (fun done f => insert f.1 f.2 done) done),
            ⟨rest, (pos.afterAll behind.chars).afterAll
              (fieldsChars false fields ++ (inner.chars ++ ['\x7d']))⟩) := by
      intro done pos
      rw [readFieldsFrom_blanks]
      refine toOption_readFieldsFrom fields inner _ ?_
      simp only [List.length_append, List.length_cons]
      omega
    have hnext := toOption_nextKey before key first (beforeColon.chars ++ ':' ::
      (afterColon.chars ++ (t.chars ++ (behind.chars ++
        (fieldsChars false fields ++ (inner.chars ++ '\x7d' :: rest)))))) pos
    simp only [fieldsChars, Lead.chars, List.append_assoc, List.cons_append]
    rw [toOption_readFieldsFrom_member hnext (readColon_blanks ..), fieldValues?]
    cases key.content? with
    | none => rfl
    | some name =>
      simp only [Option.bind_some, readValueFrom_blanks, hread]
      cases t.value? levels with
      | none => rfl
      | some v =>
        simp only [Option.map_some, Option.bind_some, hmore, Option.map_map, Function.comp_def]
        simp

end

/-- A spelled value, with blanks before it, is read exactly where it stands for a value, whatever
stands behind it that does not go on with a number. -/
theorem toOption_readValue (before : Blanks) (t : Spelling) (levels : Nat) {rest : List Char}
    (hrest : EndsNumber rest) (pos : Position) :
    (readValue levels ⟨before.chars ++ (t.chars ++ rest), pos⟩).toOption =
      (t.value? levels).map (·, ⟨rest, pos.afterAll (before.chars ++ t.chars)⟩) := by
  rw [readValue, readValueFrom_blanks, Position.afterAll_append]
  refine toOption_readValueFrom t _ ?_ hrest
  simp only [List.length_append]
  omega

end Spelling

end Json

end LintDiscovery
