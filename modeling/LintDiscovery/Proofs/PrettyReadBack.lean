/-
Values printed one item a line are read back.

What is printed over several lines is one of the spellings of a value, so nothing is said of the
reader again: it is enough to find the spelling. The commas are the only difficulty, because the
printer puts them behind a member and a spelling has them in front of the next one.

* `Quotation.exists_of_string`, `Numeral.exists_of_integer` — printed literals are spelled;
* `Spelling.exists_of_pretty` — printed values are spelled;
* `parse_prettyText` — a printed value is read back, whatever blanks stand behind it.
-/
import LintDiscovery.Proofs.ArgumentThreading

namespace LintDiscovery

namespace Json

/-! ### Literals -/

/-- A printed character is a part of a string and stands for itself. -/
theorem Piece.exists_of_char (c : Char) :
    ∃ p : Piece, p.chars = stringChar c ∧
      ∀ rest, Quotation.denoted? (p :: rest) = (Quotation.denoted? rest).map (c :: ·) := by
  unfold stringChar
  split
  · subst c
    exact ⟨.letter '"' '"' rfl, rfl, fun _ => rfl⟩
  rename_i hquote
  split
  · subst c
    exact ⟨.letter '\\' '\\' rfl, rfl, fun _ => rfl⟩
  rename_i hbackslash
  -- the other escapes of one letter are those of five control characters
  split
  · subst c
    exact ⟨.letter 'b' '\x08' rfl, rfl, fun _ => rfl⟩
  split
  · subst c
    exact ⟨.letter 't' '\t' rfl, rfl, fun _ => rfl⟩
  split
  · subst c
    exact ⟨.letter 'n' '\n' rfl, rfl, fun _ => rfl⟩
  split
  · subst c
    exact ⟨.letter 'f' '\x0c' rfl, rfl, fun _ => rfl⟩
  split
  · subst c
    exact ⟨.letter 'r' '\r' rfl, rfl, fun _ => rfl⟩
  split
  · rename_i hcontrol
    refine ⟨.codeUnit _ _ _ _ c.toNat (hexValue4?_control hcontrol), rfl, fun rest => ?_⟩
    rw [Quotation.denoted?_single (by omega) (by omega), Char.ofNat_toNat]
  · rename_i hcontrol
    exact ⟨.plain c ⟨hcontrol, hquote, hbackslash⟩, rfl, fun _ => rfl⟩

/-- A printed string is spelled. -/
theorem Quotation.exists_of_string (s : String) :
    ∃ q : Quotation, q.chars = stringChars s ∧ q.content? = some s := by
  have hpieces : ∀ cs : List Char, ∃ pieces : List Piece,
      pieces.flatMap Piece.chars = cs.flatMap stringChar ∧ denoted? pieces = some cs := by
    intro cs
    induction cs with
    | nil => exact ⟨[], rfl, rfl⟩
    | cons c cs ih =>
      obtain ⟨pieces, hchars, hdenoted⟩ := ih
      obtain ⟨p, hp, hstands⟩ := Piece.exists_of_char c
      refine ⟨p :: pieces, by rw [List.flatMap_cons, List.flatMap_cons, hp, hchars], ?_⟩
      rw [hstands, hdenoted, Option.map_some]
  obtain ⟨pieces, hchars, hdenoted⟩ := hpieces s.toList
  refine ⟨⟨pieces⟩, ?_, ?_⟩
  · rw [chars, hchars, stringChars, List.cons_append]
  · rw [content?, hdenoted, Option.map_some, String.ofList_toList]

/-- A printed whole number is spelled. -/
theorem Numeral.exists_of_integer {n : Int} (hn : InRange (.integer n)) :
    ∃ numeral : Numeral, numeral.chars = Number.integerChars n ∧
      numeral.value? = some (.integer n) := by
  have hcanonical : (Nat.toDigits 10 n.natAbs).head? = some '0' →
      Nat.toDigits 10 n.natAbs = ['0'] := by
    intro hzero
    rcases Nat.eq_zero_or_pos n.natAbs with h | h
    · rw [h]
      rfl
    · obtain ⟨d, ds, hds, hd⟩ := toDigits_pos h
      rw [hds] at hzero
      exact absurd (Option.some.inj hzero) hd
  refine ⟨⟨n < 0, ⟨Nat.toDigits 10 n.natAbs, fun _ => isDigit_of_mem_toDigits,
    Nat.toDigits_ne_nil⟩, none, none, hcanonical⟩, ?_, ?_⟩
  · simp [chars, magnitude, fractionChars, exponentChars, Number.integerChars]
  · have hfit : n.natAbs ≤ maxInteger := by
      have := hn.1
      have := hn.2
      have : Nat.pow 2 63 ≤ maxInteger := by decide
      omega
    rw [value?, absorb_toDigits hfit]
    show whole? (n < 0) n.natAbs = _
    rcases Int.lt_or_le n 0 with hneg | hnonneg
    · have hleast : 0 < n.natAbs ∧ n.natAbs ≤ Nat.pow 2 63 := by
        have := hn.1
        omega
      have hvalue : -(n.natAbs : Int) = n := by omega
      rw [decide_eq_true hneg, whole?, if_neg (by decide), if_pos hleast, hvalue]
    · have hvalue : (n.natAbs : Int) = n := Int.natAbs_of_nonneg hnonneg
      rw [decide_eq_false (Int.not_lt.mpr hnonneg), whole?, if_pos (by decide), hvalue]

/-! ### Values of any depth -/

theorem merged_of_nodup {fields : List (String × Json)} (h : (fields.map Prod.fst).Nodup) :
    merged fields = fields := by
  induction fields using List.reverseRecOn with
  | nil => rfl
  | append_singleton fields f ih =>
    obtain ⟨key, v⟩ := f
    rw [List.map_append, List.nodup_append] at h
    have hnew : key ∉ fields.map Prod.fst := fun hmem =>
      h.2.2 key hmem key (by simp) rfl
    rw [merged_concat, ih h.1, insert_of_new hnew]

/-- The blanks of a new line. -/
def Blanks.newLine (level : Nat) : Blanks :=
  ⟨Json.newLine level, by
    intro c hc
    rcases List.mem_cons.mp hc with rfl | hc
    · rfl
    · rw [List.eq_of_mem_replicate hc]
      rfl⟩

/-- One blank. -/
def Blanks.one : Blanks :=
  ⟨[' '], by simp [isSpace]⟩

namespace Spelling

-- The statements about items and fields are about those still to come, so the comma that is printed
-- behind a member stands in front of them.
mutual

/-- A printed value is spelled. -/
theorem exists_of_pretty : ∀ (v : Json) (level : Nat) {levels : Nat}, Kept levels v →
    v.isWhole = true → ∃ t : Spelling, t.chars = prettyChars level v ∧ t.value? levels = some v
  | .null, _, _, _, _ => ⟨.null, rfl, rfl⟩
  | .bool true, _, _, _, _ => ⟨.bool true, rfl, rfl⟩
  | .bool false, _, _, _, _ => ⟨.bool false, rfl, rfl⟩
  | .number (.integer n), _, _, hkept, _ => by
    cases hkept with
    | number fits =>
      obtain ⟨numeral, hchars, hvalue⟩ := Numeral.exists_of_integer fits
      refine ⟨.number numeral, ?_, ?_⟩
      · rw [chars, hchars, prettyChars, Number.chars]
      · rw [value?, hvalue, Option.map_some]
  | .number (.double _), _, _, _, hwhole => by cases hwhole
  | .string s, _, _, _, _ => by
    obtain ⟨q, hchars, hcontent⟩ := Quotation.exists_of_string s
    refine ⟨.string q, ?_, ?_⟩
    · rw [chars, hchars, prettyChars]
    · rw [value?, hcontent, Option.map_some]
  | .array [], _, levels, hkept, _ => by
    cases hkept with
    | array deep _ =>
      refine ⟨.array [] .none, rfl, ?_⟩
      rw [value?, if_neg (Nat.not_le.mpr deep)]
      rfl
  | .array (v :: items), level, levels, hkept, hwhole => by
    cases hkept with
    | array deep kept =>
      obtain ⟨ts, hchars, hvalues⟩ := exists_items_of_pretty (v :: items) level true kept hwhole
      refine ⟨.array ts (.newLine level), ?_, ?_⟩
      · rw [chars, prettyChars]
        exact congrArg ('[' :: ·) hchars
      · rw [value?, if_neg (Nat.not_le.mpr deep), hvalues, Option.map_some]
  | .object [], _, levels, hkept, _ => by
    cases hkept with
    | object deep _ _ =>
      refine ⟨.object [] .none, rfl, ?_⟩
      rw [value?, if_neg (Nat.not_le.mpr deep)]
      rfl
  | .object (f :: fields), level, levels, hkept, hwhole => by
    cases hkept with
    | object deep distinct kept =>
      obtain ⟨ts, hchars, hvalues⟩ := exists_fields_of_pretty (f :: fields) level true kept hwhole
      refine ⟨.object ts (.newLine level), ?_, ?_⟩
      · rw [chars, prettyChars]
        exact congrArg ('\x7b' :: ·) hchars
      · rw [value?, if_neg (Nat.not_le.mpr deep), hvalues, Option.map_some,
          merged_of_nodup distinct]

theorem exists_items_of_pretty : ∀ (items : List Json) (level : Nat) {levels : Nat} (first : Bool),
    (∀ v ∈ items, Kept levels v) → itemsAreWhole items = true →
    ∃ ts, itemsChars first ts ++ ((Blanks.newLine level).chars ++ [']']) =
        (if items.isEmpty then [] else separator first) ++ prettyItemChars level items ∧
      itemValues? levels ts = some items
  | [], _, _, _, _, _ => ⟨[], rfl, rfl⟩
  | v :: items, level, levels, first, hkept, hwhole => by
    rw [itemsAreWhole, Bool.and_eq_true] at hwhole
    obtain ⟨t, ht, hvalue⟩ := exists_of_pretty v (level + 1) (hkept v List.mem_cons_self) hwhole.1
    obtain ⟨ts, hts, hvalues⟩ := exists_items_of_pretty items level false
      (fun w hw => hkept w (List.mem_cons_of_mem v hw)) hwhole.2
    refine ⟨(.newLine (level + 1), t, .none) :: ts, ?_, ?_⟩
    · simp only [itemsChars, List.append_assoc, hts, ht, prettyItemChars]
      rfl
    · simp [itemValues?, hvalue, hvalues]

theorem exists_fields_of_pretty : ∀ (fields : List (String × Json)) (level : Nat) {levels : Nat}
    (first : Bool), (∀ f ∈ fields, Kept levels f.2) → fieldsAreWhole fields = true →
    ∃ ts, fieldsChars first ts ++ ((Blanks.newLine level).chars ++ ['\x7d']) =
        (if fields.isEmpty then [] else separator first) ++ prettyFieldChars level fields ∧
      fieldValues? levels ts = some fields
  | [], _, _, _, _, _ => ⟨[], rfl, rfl⟩
  | (key, v) :: fields, level, levels, first, hkept, hwhole => by
    rw [fieldsAreWhole, Bool.and_eq_true] at hwhole
    obtain ⟨q, hq, hcontent⟩ := Quotation.exists_of_string key
    obtain ⟨t, ht, hvalue⟩ := exists_of_pretty v (level + 1) (hkept _ List.mem_cons_self) hwhole.1
    obtain ⟨ts, hts, hvalues⟩ := exists_fields_of_pretty fields level false
      (fun f hf => hkept f (List.mem_cons_of_mem (key, v) hf)) hwhole.2
    refine ⟨(⟨.newLine (level + 1), q, .none, .one⟩, t, .none) :: ts, ?_, ?_⟩
    · simp only [fieldsChars, Lead.chars, List.append_assoc, hts, ht, hq, prettyFieldChars,
        List.cons_append]
      rfl
    · simp [fieldValues?, hcontent, hvalue, hvalues]

end

end Spelling

/-! ### Whole texts -/

/-- **A value printed over several lines is read back**, if it was kept by a reader and its numbers
are whole, and whatever blanks stand behind it. -/
theorem parse_prettyText {v : Json} (hkept : Kept maxLevels v) (hwhole : v.isWhole = true)
    (behind : Blanks) : parse (v.prettyText ++ String.ofList behind.chars) = .ok v := by
  obtain ⟨t, hchars, hvalue⟩ := Spelling.exists_of_pretty v 0 hkept hwhole
  have hends : EndsNumber behind.chars := by
    have hnil : EndsNumber [] := by simp [EndsNumber]
    simpa using endsNumber_blanks behind hnil
  have hread := Spelling.toOption_readValue .none t maxLevels hends .start
  rw [hvalue, hchars] at hread
  have hstart : Cursor.start (v.prettyText ++ String.ofList behind.chars) =
      ⟨Blanks.none.chars ++ (prettyChars 0 v ++ behind.chars), .start⟩ := by
    simp [Cursor.start, prettyText, Blanks.none]
  rw [parse, hstart, eq_ok_of_toOption hread]
  show (finish _ >>= fun _ => pure v) = _
  rw [Config.finish_blanks]
  rfl

end Json

end LintDiscovery
