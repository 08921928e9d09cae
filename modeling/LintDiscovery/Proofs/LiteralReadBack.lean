/-
Printed literals are read back.

Each reader is run on a printed literal with any text behind it, from any position, and gives the
literal and the cursor behind it.

* `absorb_toDigits` — digits are absorbed to the number they were printed from;
* `readNumber_nonneg`, `readNumber_neg` — a whole number is read back, if what follows cannot
  continue it;
* `readString_stringChars` — a string is read back, whatever follows.

Strings are taken one character at a time: `readCharsFrom_stringChar` says what the printed form of
one character does to the reader, and the induction over the string only counts rounds.
-/
import LintDiscovery.Json.Printer
import LintDiscovery.Json.Literal

namespace LintDiscovery

namespace Json

/-! ### Cursors -/

@[simp] theorem Position.afterAll_nil (p : Position) : p.afterAll [] = p := rfl

@[simp] theorem Position.afterAll_cons (p : Position) (x : Char) (xs : List Char) :
    p.afterAll (x :: xs) = (p.after x).afterAll xs := rfl

@[simp] theorem Position.afterAll_append (p : Position) (xs ys : List Char) :
    p.afterAll (xs ++ ys) = (p.afterAll xs).afterAll ys :=
  List.foldl_append

@[simp] theorem Cursor.advance_cons (x : Char) (xs : List Char) (p : Position) :
    Cursor.advance ⟨x :: xs, p⟩ = ⟨xs, p.after x⟩ := rfl

theorem Cursor.skipWhile_append {p : Char → Bool} {xs : List Char} (h : ∀ x ∈ xs, p x = true)
    (rest : List Char) (pos : Position) :
    Cursor.skipWhile p (xs ++ rest) pos = Cursor.skipWhile p rest (pos.afterAll xs) := by
  induction xs generalizing pos with
  | nil => rfl
  | cons x xs ih =>
    have hx : p x = true := h x List.mem_cons_self
    rw [List.cons_append, Cursor.skipWhile, if_pos hx]
    exact ih (fun y hy => h y (List.mem_cons_of_mem x hy)) (pos.after x)

theorem Cursor.skipWhile_stop {p : Char → Bool} {rest : List Char}
    (h : ∀ x ∈ rest.head?, p x = false) (pos : Position) :
    Cursor.skipWhile p rest pos = ⟨rest, pos⟩ := by
  cases rest with
  | nil => rfl
  | cons x xs =>
    have hx : p x = false := h x rfl
    simp [Cursor.skipWhile, hx]

theorem Cursor.skipSpace_cons {x : Char} (hx : isSpace x = false) (xs : List Char)
    (pos : Position) : Cursor.skipSpace ⟨x :: xs, pos⟩ = ⟨x :: xs, pos⟩ :=
  Cursor.skipWhile_stop (by simpa using hx) pos

/-! ### Words -/

theorem readWord_self (word rest : List Char) (pos : Position) :
    readWord word ⟨word ++ rest, pos⟩ = .ok ⟨rest, pos.afterAll word⟩ := by
  induction word generalizing pos with
  | nil => rfl
  | cons x xs ih =>
    rw [List.cons_append, readWord]
    simpa using ih (pos.after x)

/-! ### Digits -/

theorem isDigit_of_mem_toDigits {n : Nat} {d : Char} (h : d ∈ Nat.toDigits 10 n) :
    isDigit d = true := by
  have hd := Nat.isDigit_of_mem_toDigits (by omega) (by omega) h
  simp only [Char.isDigit, Bool.and_eq_true, decide_eq_true_eq] at hd
  simp only [isDigit, Bool.and_eq_true, decide_eq_true_eq]
  exact hd

theorem takeDigits_append {ds rest : List Char} (hds : ∀ d ∈ ds, isDigit d = true)
    (hrest : ∀ x ∈ rest.head?, isDigit x = false) (pos : Position) :
    takeDigits ⟨ds ++ rest, pos⟩ = (ds, ⟨rest, pos.afterAll ds⟩) := by
  have hstop : rest.takeWhile isDigit = [] := by
    cases rest with
    | nil => rfl
    | cons x xs => simp [hrest x rfl]
  rw [takeDigits, List.takeWhile_append_of_pos hds, hstop, List.append_nil,
    Cursor.skipWhile_append hds, Cursor.skipWhile_stop hrest]

theorem le_ofDigitChars (ds : List Char) (n : Nat) : n ≤ Nat.ofDigitChars 10 ds n := by
  induction ds generalizing n with
  | nil => exact Nat.le_refl n
  | cons d ds ih =>
    rw [Nat.ofDigitChars_cons]
    have := ih (10 * n + (d.toNat - '0'.toNat))
    omega

/-- Digits whose value stays within the limit are absorbed to the last. -/
theorem absorb_of_le {limit n : Nat} {ds : List Char}
    (h : Nat.ofDigitChars 10 ds n ≤ limit) :
    absorb limit n ds = (Nat.ofDigitChars 10 ds n, []) := by
  induction ds generalizing n with
  | nil => rfl
  | cons d ds ih =>
    rw [Nat.ofDigitChars_cons, Nat.mul_comm] at h ⊢
    -- the value only grows, so the first digit fits because all of them do
    have hfirst : n * 10 + digitValue d ≤ limit :=
      Nat.le_trans (le_ofDigitChars ds (n * 10 + digitValue d)) h
    rw [absorb, if_pos hfirst]
    exact ih h

theorem absorb_toDigits {limit n : Nat} (h : n ≤ limit) :
    absorb limit 0 (Nat.toDigits 10 n) = (n, []) := by
  have hn : Nat.ofDigitChars 10 (Nat.toDigits 10 n) 0 = n := Nat.ofDigitChars_ten_toDigits
  rw [absorb_of_le (Nat.le_trans (Nat.le_of_eq hn) h), hn]

theorem toDigits_pos {n : Nat} (h : 0 < n) :
    ∃ d ds, Nat.toDigits 10 n = d :: ds ∧ d ≠ '0' := by
  have hdigit : ∀ m < 10, 0 < m → Nat.digitChar m ≠ '0' := by decide
  induction n using Nat.strongRecOn with
  | ind n ih =>
    rcases Nat.lt_or_ge n 10 with hn | hn
    · exact ⟨Nat.digitChar n, [], Nat.toDigits_of_lt_base hn, hdigit n hn h⟩
    · obtain ⟨d, ds, hds, hd⟩ := ih (n / 10) (by omega) (by omega)
      refine ⟨d, ds ++ [Nat.digitChar (n % 10)], ?_, hd⟩
      rw [Nat.toDigits_of_base_le (by omega) hn, hds, List.cons_append]

/-! ### Numbers -/

/-- A text that does not go on with the number before it. -/
def EndsNumber (rest : List Char) : Prop :=
  ∀ x ∈ rest.head?, isDigit x = false ∧ x ≠ '.' ∧ x ≠ 'e' ∧ x ≠ 'E'

theorem readTail_of_endsNumber {rest : List Char} (h : EndsNumber rest) (negative : Bool)
    (n : Nat) (pos : Position) :
    readTail negative n 0 ⟨rest, pos⟩ = wholeNumber ⟨rest, pos⟩ negative n := by
  cases rest with
  | nil => rfl
  | cons x xs =>
    obtain ⟨-, hpoint, hlower, hupper⟩ := h x rfl
    simp [readTail, hpoint, hlower, hupper]

/-- The digits of a number that fits are read as this number. -/
theorem readNumber_toDigits {n : Nat} (hn : n ≤ maxInteger) (negative : Bool) {rest : List Char}
    (hrest : EndsNumber rest) (pos : Position) :
    readNumber negative ⟨Nat.toDigits 10 n ++ rest, pos⟩ =
      wholeNumber ⟨rest, pos.afterAll (Nat.toDigits 10 n)⟩ negative n := by
  -- zero is read by a branch of its own, which no other numeral may enter
  rcases Nat.eq_zero_or_pos n with rfl | hpos
  · rw [Nat.toDigits_zero, ← readTail_of_endsNumber hrest]
    cases rest with
    | nil => rfl
    | cons x xs => simp [readNumber, (hrest x rfl).1]
  · obtain ⟨d, ds, hds, hd⟩ := toDigits_pos hpos
    have hdigits : ∀ x ∈ d :: ds, isDigit x = true := fun x hx =>
      isDigit_of_mem_toDigits (hds ▸ hx)
    have htake := takeDigits_append hdigits (fun x hx => (hrest x hx).1) pos
    have habsorb : absorb maxInteger 0 (d :: ds) = (n, []) := hds ▸ absorb_toDigits hn
    have hfirst : isDigit d = true := hdigits d List.mem_cons_self
    rw [hds, ← readTail_of_endsNumber hrest]
    rw [List.cons_append] at htake ⊢
    simp [readNumber, hfirst, htake, habsorb]

/-- Whole numbers are from `-2 ^ 63` to `2 ^ 64 - 1`; doubles are any. -/
def InRange : Number → Prop
  | .integer n => -Nat.pow 2 63 ≤ n ∧ n ≤ maxInteger
  | .double _ => True

theorem readNumber_nonneg {n : Int} (hn : InRange (.integer n)) (h : 0 ≤ n) {rest : List Char}
    (hrest : EndsNumber rest) (pos : Position) :
    readNumber false ⟨Number.integerChars n ++ rest, pos⟩ =
      .ok (.integer n, ⟨rest, pos.afterAll (Number.integerChars n)⟩) := by
  have hfit : n.natAbs ≤ maxInteger := by
    have := hn.2
    omega
  have hchars : Number.integerChars n = Nat.toDigits 10 n.natAbs := by
    rw [Number.integerChars, if_neg (by omega), List.nil_append]
  have hvalue : (n.natAbs : Int) = n := Int.natAbs_of_nonneg h
  rw [hchars, readNumber_toDigits hfit false hrest]
  simp [wholeNumber, hvalue]

theorem readNumber_neg {n : Int} (hn : InRange (.integer n)) (h : n < 0) {rest : List Char}
    (hrest : EndsNumber rest) (pos : Position) :
    readNumber true ⟨Nat.toDigits 10 n.natAbs ++ rest, pos⟩ =
      .ok (.integer n, ⟨rest, pos.afterAll (Nat.toDigits 10 n.natAbs)⟩) := by
  have hleast : n.natAbs ≤ Nat.pow 2 63 := by
    have := hn.1
    omega
  have hfit : n.natAbs ≤ maxInteger := Nat.le_trans hleast (by decide)
  have hpos : 0 < n.natAbs := by omega
  have hvalue : -(n.natAbs : Int) = n := by omega
  rw [readNumber_toDigits hfit true hrest, wholeNumber, if_neg (by simp), if_pos ⟨hpos, hleast⟩,
    hvalue]

/-! ### Strings -/

theorem hexValue?_hexDigit : ∀ n < 16, hexValue? (hexDigit n) = some n := by
  decide

theorem hexValue4?_control {x : Char} (hx : x.toNat < 0x20) :
    hexValue4? '0' '0' (hexDigit (x.toNat / 16)) (hexDigit (x.toNat % 16)) = some x.toNat := by
  have hzero : hexValue? '0' = some 0 := by decide
  have hhigh := hexValue?_hexDigit (x.toNat / 16) (by omega)
  have hlow := hexValue?_hexDigit (x.toNat % 16) (by omega)
  simp only [hexValue4?, hzero, hhigh, hlow, Option.bind_eq_bind, Option.bind_some,
    Option.pure_def, Option.some.injEq]
  omega

theorem readUnit_control {x : Char} (hx : x.toNat < 0x20) (rest : List Char) (pos : Position) :
    readUnit ⟨'0' :: '0' :: hexDigit (x.toNat / 16) :: hexDigit (x.toNat % 16) :: rest, pos⟩ =
      .ok (x, ⟨rest, pos.afterAll ['0', '0', hexDigit (x.toNat / 16), hexDigit (x.toNat % 16)]⟩) := by
  have hunit := hexValue4?_control hx
  have hread : readHex ⟨'0' :: '0' :: hexDigit (x.toNat / 16) :: hexDigit (x.toNat % 16) :: rest,
      pos⟩ = .ok (x.toNat, ⟨rest, pos.afterAll
        ['0', '0', hexDigit (x.toNat / 16), hexDigit (x.toNat % 16)]⟩) := by
    simp [readHex, hunit]
  -- a control character is far below the halves of pairs
  have hlone : ¬(0xdc00 ≤ x.toNat ∧ x.toNat ≤ 0xdfff) := by omega
  have hsingle : x.toNat < 0xd800 ∨ 0xdbff < x.toNat := by omega
  rw [readUnit, hread]
  simp only [bind, Except.bind, pure, Except.pure]
  rw [if_neg hlone, if_pos hsingle, Char.ofNat_toNat]

/-- What the printed form of one character does to the reader of a string. -/
theorem readCharsFrom_stringChar (x b : Char) (bound done rest : List Char) (pos : Position) :
    readCharsFrom (b :: bound) done ⟨stringChar x ++ rest, pos⟩ =
      readCharsFrom bound (x :: done) ⟨rest, pos.afterAll (stringChar x)⟩ := by
  unfold stringChar
  -- the seven escapes of one letter compute
  iterate 7
    split
    · subst x
      rfl
  split
  · rename_i hcontrol
    simp [readCharsFrom, readEscape, readUnit_control hcontrol]
  · rename_i hcontrol
    simp [readCharsFrom, hcontrol]

/-- The printed characters of a string and the closing quote are read in more rounds than there are
characters. -/
theorem readCharsFrom_flatMap {cs bound : List Char} (h : cs.length < bound.length)
    (done rest : List Char) (pos : Position) :
    readCharsFrom bound done ⟨cs.flatMap stringChar ++ '"' :: rest, pos⟩ =
      .ok (String.ofList (done.reverse ++ cs),
        ⟨rest, (pos.afterAll (cs.flatMap stringChar)).after '"'⟩) := by
  induction cs generalizing bound done pos with
  | nil =>
    obtain ⟨b, bound, rfl⟩ := List.exists_cons_of_length_pos h
    simp [readCharsFrom]
  | cons x xs ih =>
    obtain ⟨b, bound, rfl⟩ := List.exists_cons_of_length_pos (Nat.zero_lt_of_lt h)
    have hrounds : xs.length < bound.length := by simpa using h
    rw [List.flatMap_cons, List.append_assoc, readCharsFrom_stringChar, ih hrounds]
    simp

theorem length_stringChar_pos (x : Char) : 0 < (stringChar x).length := by
  unfold stringChar
  repeat' split
  all_goals simp

theorem length_le_flatMap_stringChar (cs : List Char) :
    cs.length ≤ (cs.flatMap stringChar).length := by
  induction cs with
  | nil => exact Nat.le_refl 0
  | cons x xs ih =>
    have := length_stringChar_pos x
    rw [List.flatMap_cons, List.length_append, List.length_cons]
    omega

/-- A printed string, its opening quote passed, is read as this string. -/
theorem readString_stringChars (s : String) (rest : List Char) (pos : Position) :
    readString (Cursor.advance ⟨stringChars s ++ rest, pos⟩) =
      .ok (s, ⟨rest, pos.afterAll (stringChars s)⟩) := by
  have hrounds : s.toList.length < (s.toList.flatMap stringChar ++ '"' :: rest).length := by
    have := length_le_flatMap_stringChar s.toList
    rw [List.length_append, List.length_cons]
    omega
  have hread := readCharsFrom_flatMap hrounds [] rest (pos.after '"')
  simpa [readString, stringChars] using hread

end Json

end LintDiscovery
