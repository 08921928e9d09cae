/-
JSON values as they are spelled.

A `Spelling` is a value the way it stands in a text: blanks between its parts, digits as they were
typed, escapes in its strings, the fields of its objects in their order with repeated keys and all.

* `Spelling.chars` — the text;
* `Spelling.value?` — the value that the text stands for, where so many levels of brackets are left.

Not every spelling stands for a value: halves of pairs of code units may stand alone in a string,
a number may be beyond all doubles, and brackets may nest too deep.

A reader looks at the first character to tell what it has before it. `Numeral.whole_cases`,
`Spelling.exists_chars_cons` and `Spelling.kind_of_chars` say what a text may begin with.
-/
import LintDiscovery.Proofs.ValueReadBack

namespace LintDiscovery

namespace Json

/-! ### Blanks -/

/-- Characters that may stand between the parts of a text. -/
structure Blanks where
  chars : List Char
  areBlank : ∀ c ∈ chars, isSpace c = true

/-- No blanks. -/
def Blanks.none : Blanks := ⟨[], by simp⟩

/-! ### Numbers -/

/-- At least one digit. -/
structure Digits where
  chars : List Char
  areDigits : ∀ c ∈ chars, isDigit c = true
  nonempty : chars ≠ []

theorem Digits.exists_cons (d : Digits) :
    ∃ x xs, d.chars = x :: xs ∧ isDigit x = true := by
  obtain ⟨x, xs, hx⟩ := List.exists_cons_of_ne_nil d.nonempty
  exact ⟨x, xs, hx, d.areDigits x (hx ▸ List.mem_cons_self)⟩

/-- The sign of an exponent, if it has one. -/
inductive ExponentSign where
  | none
  | plus
  | minus
  deriving DecidableEq

def ExponentSign.chars : ExponentSign → List Char
  | none => []
  | plus => ['+']
  | minus => ['-']

/-- An exponent, with its letter of either case. -/
structure Exponent where
  upper : Bool
  sign : ExponentSign
  digits : Digits

namespace Exponent

def letter (e : Exponent) : Char :=
  if e.upper then 'E' else 'e'

def chars (e : Exponent) : List Char :=
  e.letter :: (e.sign.chars ++ e.digits.chars)

theorem exists_cons (e : Exponent) : ∃ xs, e.chars = 'e' :: xs ∨ e.chars = 'E' :: xs := by
  obtain ⟨upper, sign, digits⟩ := e
  cases upper with
  | false => exact ⟨_, .inl rfl⟩
  | true => exact ⟨_, .inr rfl⟩

end Exponent

/-- The numeral `significand · 10 ^ exponent` as a double, if there is one. -/
def double? (negative : Bool) (significand : Nat) (exponent : Int) : Option Number :=
  (Double.ofDecimal negative significand exponent).map .double

/-- The numeral `significand · 10 ^ exponent` with a further exponent behind it, if there is one. An
exponent that cannot be counted out leaves no value unless the number is zero or small. -/
def scaled? (negative : Bool) (significand : Nat) (exponent : Int) : Option Exponent → Option Number
  | none => double? negative significand exponent
  | some e =>
    match absorb maxExponent 0 e.digits.chars with
    | (n, []) =>
      double? negative significand (if e.sign = .minus then exponent - n else exponent + n)
    | _ =>
      if significand ≠ 0 ∧ e.sign ≠ .minus then none else some (.double (.zero negative))

/-- A whole numeral without point and exponent. -/
def whole? (negative : Bool) (significand : Nat) : Option Number :=
  if !negative then some (.integer significand)
  else if 0 < significand ∧ significand ≤ Nat.pow 2 63 then some (.integer (-significand))
  else double? true significand 0

/-- A number: a sign, digits of which the first is zero only where it is alone, and perhaps a
fraction and an exponent. -/
structure Numeral where
  negative : Bool
  whole : Digits
  fraction : Option Digits
  exponent : Option Exponent
  canonical : whole.chars.head? = some '0' → whole.chars = ['0']

namespace Numeral

def fractionChars : Option Digits → List Char
  | none => []
  | some f => '.' :: f.chars

def exponentChars : Option Exponent → List Char
  | none => []
  | some e => e.chars

/-- A number without its sign as text. -/
def magnitude (n : Numeral) : List Char :=
  n.whole.chars ++ (fractionChars n.fraction ++ exponentChars n.exponent)

def chars (n : Numeral) : List Char :=
  (if n.negative then ['-'] else []) ++ n.magnitude

/-- The value of digits that were counted as `significand`, `extra` of them left out, with what
follows them. -/
def tailValue? (negative : Bool) (significand extra : Nat) :
    Option Digits → Option Exponent → Option Number
  | none, none =>
    if extra = 0 then whole? negative significand else double? negative significand extra
  | none, some e => scaled? negative significand extra (some e)
  | some f, e =>
    let (counted, dropped) := absorb maxInteger significand f.chars
    scaled? negative counted (extra - (f.chars.length - dropped.length : Nat)) e

/-- The number that a numeral stands for, if it is not beyond all doubles. -/
def value? (n : Numeral) : Option Number :=
  let (significand, left) := absorb maxInteger 0 n.whole.chars
  tailValue? n.negative significand left.length n.fraction n.exponent

/-- The digits before the point are a zero alone, or begin with another digit. -/
theorem whole_cases (n : Numeral) :
    n.whole.chars = ['0'] ∨ ∃ d ds, n.whole.chars = d :: ds ∧ isDigit d = true ∧ d ≠ '0' := by
  obtain ⟨d, ds, hds, hd⟩ := n.whole.exists_cons
  by_cases hzero : d = '0'
  · subst hzero
    exact .inl (n.canonical (by rw [hds]; rfl))
  · exact .inr ⟨d, ds, hds, hd, hzero⟩

theorem exists_magnitude_cons (n : Numeral) :
    ∃ d ds, n.magnitude = d :: ds ∧ isDigit d = true := by
  obtain ⟨d, ds, hds, hd⟩ := n.whole.exists_cons
  refine ⟨d, ds ++ (fractionChars n.fraction ++ exponentChars n.exponent), ?_, hd⟩
  rw [magnitude, hds, List.cons_append]

end Numeral

/-! ### Strings -/

/-- A part of a string: a character as it is, an escape of one letter, or a code unit. -/
inductive Piece where
  | plain (c : Char) (admissible : ¬c.toNat < 0x20 ∧ c ≠ '"' ∧ c ≠ '\\')
  | letter (c : Char) (meaning : Char) (known : escaped? c = some meaning)
  | codeUnit (a b c d : Char) (value : Nat) (known : hexValue4? a b c d = some value)

def Piece.chars : Piece → List Char
  | .plain c _ => [c]
  | .letter c _ _ => ['\\', c]
  | .codeUnit a b c d _ _ => ['\\', 'u', a, b, c, d]

theorem length_pieces_le (pieces : List Piece) :
    pieces.length ≤ (pieces.flatMap Piece.chars).length := by
  induction pieces with
  | nil => exact Nat.le_refl 0
  | cons piece pieces ih =>
    have hpos : 0 < piece.chars.length := by cases piece <;> simp [Piece.chars]
    rw [List.flatMap_cons, List.length_append, List.length_cons]
    omega

/-- A string in its quotes. -/
structure Quotation where
  pieces : List Piece

namespace Quotation

def chars (q : Quotation) : List Char :=
  '"' :: (q.pieces.flatMap Piece.chars ++ ['"'])

/-- The characters of a string that need no escape, each as it is. -/
def plain (s : String) : Quotation :=
  ⟨s.toList.filterMap fun c =>
    if h : ¬c.toNat < 0x20 ∧ c ≠ '"' ∧ c ≠ '\\' then some (.plain c h) else none⟩

/-- The characters that parts of a string stand for. A code unit stands for a character by itself
or as the first half of a pair whose second half follows at once. -/
def denoted? : List Piece → Option (List Char)
  | [] => some []
  | .plain c _ :: rest => (denoted? rest).map (c :: ·)
  | .letter _ x _ :: rest => (denoted? rest).map (x :: ·)
  | .codeUnit _ _ _ _ n _ :: rest =>
    if 0xdc00 ≤ n ∧ n ≤ 0xdfff then none
    else if n < 0xd800 ∨ 0xdbff < n then (denoted? rest).map (Char.ofNat n :: ·)
    else
      match rest with
      | .codeUnit _ _ _ _ m _ :: rest =>
        if m < 0xdc00 ∨ 0xdfff < m then none
        else
          (denoted? rest).map
            (Char.ofNat ((n - 0xd800) * 0x400 + (m - 0xdc00) + 0x10000) :: ·)
      | _ => none

theorem denoted?_second {n : Nat} (h : 0xdc00 ≤ n ∧ n ≤ 0xdfff) {a b c d : Char}
    (known : hexValue4? a b c d = some n) (pieces : List Piece) :
    denoted? (.codeUnit a b c d n known :: pieces) = none := by
  rw [denoted?.eq_def]
  exact if_pos h

theorem denoted?_single {n : Nat} (hsecond : ¬(0xdc00 ≤ n ∧ n ≤ 0xdfff))
    (hfirst : n < 0xd800 ∨ 0xdbff < n) {a b c d : Char} (known : hexValue4? a b c d = some n)
    (pieces : List Piece) :
    denoted? (.codeUnit a b c d n known :: pieces) = (denoted? pieces).map (Char.ofNat n :: ·) := by
  rw [denoted?.eq_def]
  exact (if_neg hsecond).trans (if_pos hfirst)

/-- The string that a quotation stands for, if it is one. -/
def content? (q : Quotation) : Option String :=
  (denoted? q.pieces).map String.ofList

end Quotation

/-! ### Values -/

/-- What stands before the value of a field. -/
structure Lead where
  before : Blanks
  key : Quotation
  beforeColon : Blanks
  afterColon : Blanks

/-- A value as it is spelled. Items and fields have the blanks behind them; `inner` are the blanks
before the closing bracket. -/
inductive Spelling where
  | null
  | bool (value : Bool)
  | number (numeral : Numeral)
  | string (quotation : Quotation)
  | array (items : List (Blanks × Spelling × Blanks)) (inner : Blanks)
  | object (fields : List (Lead × Spelling × Blanks)) (inner : Blanks)

/-- The key and the colon of a field as text. -/
def Lead.chars (l : Lead) : List Char :=
  l.before.chars ++ (l.key.chars ++ (l.beforeColon.chars ++ ':' :: l.afterColon.chars))

namespace Spelling

/-- A field without blanks. -/
def plainField (key : String) (t : Spelling) : Lead × Spelling × Blanks :=
  (⟨.none, .plain key, .none, .none⟩, t, .none)

/-- An item without blanks. -/
def plainItem (t : Spelling) : Blanks × Spelling × Blanks :=
  (.none, t, .none)

mutual

/-- A spelling as text. -/
def chars : Spelling → List Char
  | .null => ['n', 'u', 'l', 'l']
  | .bool true => ['t', 'r', 'u', 'e']
  | .bool false => ['f', 'a', 'l', 's', 'e']
  | .number n => n.chars
  | .string q => q.chars
  | .array items inner => '[' :: (itemsChars true items ++ (inner.chars ++ [']']))
  | .object fields inner => '\x7b' :: (fieldsChars true fields ++ (inner.chars ++ ['\x7d']))

/-- Items, the first of them with or without a comma. -/
def itemsChars (first : Bool) : List (Blanks × Spelling × Blanks) → List Char
  | [] => []
  | (before, t, behind) :: rest =>
    separator first ++
      (before.chars ++ (t.chars ++ (behind.chars ++ itemsChars false rest)))

/-- Fields, the first of them with or without a comma. -/
def fieldsChars (first : Bool) : List (Lead × Spelling × Blanks) → List Char
  | [] => []
  | (lead, t, behind) :: rest =>
    separator first ++ (lead.chars ++ (t.chars ++ (behind.chars ++ fieldsChars false rest)))

end

mutual

/-- The value that a spelling stands for where so many levels of brackets are left, the last of
which is never taken. A repeated key keeps its first place and its last value. -/
def value? (levels : Nat) : Spelling → Option Json
  | .null => some .null
  | .bool b => some (.bool b)
  | .number n => n.value?.map .number
  | .string q => q.content?.map .string
  | .array items _ =>
    if levels ≤ 1 then none else (itemValues? (levels - 1) items).map .array
  | .object fields _ =>
    if levels ≤ 1 then none
    else (fieldValues? (levels - 1) fields).map fun pairs => .object (merged pairs)

def itemValues? (levels : Nat) : List (Blanks × Spelling × Blanks) → Option (List Json)
  | [] => some []
  | (_, t, _) :: rest =>
    (value? levels t).bind fun v => (itemValues? levels rest).map (v :: ·)

/-- The keys and values that fields stand for, one pair for each field. -/
def fieldValues? (levels : Nat) : List (Lead × Spelling × Blanks) → Option (List (String × Json))
  | [] => some []
  | (lead, t, _) :: rest =>
    lead.key.content?.bind fun key =>
      (value? levels t).bind fun v => (fieldValues? levels rest).map ((key, v) :: ·)

end

theorem array_append (items : List (Blanks × Spelling × Blanks)) (inner : Blanks)
    (rest : List Char) :
    (array items inner).chars ++ rest =
      '[' :: (itemsChars true items ++ (inner.chars ++ ']' :: rest)) := by
  simp [chars]

theorem object_append (fields : List (Lead × Spelling × Blanks)) (inner : Blanks)
    (rest : List Char) :
    (object fields inner).chars ++ rest =
      '\x7b' :: (fieldsChars true fields ++ (inner.chars ++ '\x7d' :: rest)) := by
  simp [chars]

/-! ### How a value begins -/

/-- A value begins with a character that is no blank and closes nothing. -/
theorem exists_chars_cons (t : Spelling) :
    ∃ x xs, t.chars = x :: xs ∧ isSpace x = false ∧ x ≠ ']' := by
  cases t with
  | null => exact ⟨_, _, rfl, by decide, by decide⟩
  | bool b => cases b <;> exact ⟨_, _, rfl, by decide, by decide⟩
  | string q => exact ⟨_, _, rfl, by decide, by decide⟩
  | array items inner => exact ⟨_, _, rfl, by decide, by decide⟩
  | object fields inner => exact ⟨_, _, rfl, by decide, by decide⟩
  | number n =>
    rw [chars, Numeral.chars]
    split
    · exact ⟨_, _, rfl, by decide, by decide⟩
    · obtain ⟨d, ds, hds, hd⟩ := n.exists_magnitude_cons
      refine ⟨d, ds, hds, isSpace_of_isDigit hd, ?_⟩
      rintro rfl
      cases hd

/-- The first character tells what kind of value a text spells. -/
theorem kind_of_chars {t : Spelling} {x : Char} {xs : List Char} (h : t.chars = x :: xs) :
    (x = 'n' → t = .null) ∧ (x = '"' → ∃ q, t = .string q) ∧
      (x = '[' → ∃ items inner, t = .array items inner) ∧
      (x = '\x7b' → ∃ fields inner, t = .object fields inner) := by
  cases t with
  | null => cases h; simp
  | bool b => cases b <;> cases h <;> simp
  | string q => cases h; simp
  | array items inner => cases h; simp
  | object fields inner => cases h; simp
  | number n =>
    rw [chars, Numeral.chars] at h
    split at h
    · cases h
      simp
    · obtain ⟨d, ds, hds, hd⟩ := n.exists_magnitude_cons
      rw [hds] at h
      cases h
      obtain ⟨hn, -, -, -, hquote, hbracket, hbrace⟩ := ne_of_isDigit hd
      simp [hn, hquote, hbracket, hbrace]

theorem length_chars_pos (t : Spelling) : 0 < t.chars.length := by
  obtain ⟨x, xs, hx, -⟩ := t.exists_chars_cons
  simp [hx]

end Spelling

end Json

end LintDiscovery
