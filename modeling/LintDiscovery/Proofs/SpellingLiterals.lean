/-
Spelled numbers and strings that are read.

Each reader is run on a spelled literal, with any text behind it, from any position. It gives what
the literal stands for and the cursor behind it, and fails where the literal stands for nothing; so
every statement is an equation between what the reader gives, if anything, and what is spelled.

* `skipSpace_blanks`, `endsNumber_blanks` — blanks are passed, and no number goes on with one;
* `Numeral.toOption_readNumber` — numbers, where the text behind does not go on with one;
* `toOption_readString` — strings, whatever is behind.

A string is taken one part at a time, along the recursion of `Quotation.denoted?`: the two halves of
a pair of code units are one round of the reader.
-/
import LintDiscovery.Proofs.Spelling

namespace LintDiscovery

/-! ### Results without their failures -/

theorem toOption_bind {ε α β : Type} (x : Except ε α) (f : α → Except ε β) :
    (x >>= f).toOption = x.toOption.bind fun a => (f a).toOption := by
  cases x <;> rfl

theorem eq_ok_of_toOption {ε α : Type} {x : Except ε α} {a : α} (h : x.toOption = some a) :
    x = .ok a := by
  cases x with
  | error e => cases h
  | ok b =>
    cases h
    rfl

@[simp] theorem toOption_ok {ε α : Type} (a : α) : (Except.ok a : Except ε α).toOption = some a :=
  rfl

@[simp] theorem toOption_error {ε α : Type} (e : ε) :
    (Except.error e : Except ε α).toOption = none := rfl

@[simp] theorem toOption_pure {ε α : Type} (a : α) : (pure a : Except ε α).toOption = some a := rfl

namespace Json

/-! ### Blanks -/

theorem skipSpace_blanks (ws : Blanks) (cs : List Char) (pos : Position) :
    Cursor.skipSpace ⟨ws.chars ++ cs, pos⟩ = Cursor.skipSpace ⟨cs, pos.afterAll ws.chars⟩ :=
  Cursor.skipWhile_append ws.areBlank cs pos

theorem endsNumber_of_isSpace {x : Char} (hx : isSpace x = true) (rest : List Char) :
    EndsNumber (x :: rest) := by
  intro y hy
  cases hy
  simp only [isSpace, Bool.or_eq_true, beq_iff_eq] at hx
  rcases hx with ((rfl | rfl) | rfl) | rfl <;> decide

theorem endsNumber_blanks (ws : Blanks) {rest : List Char} (h : EndsNumber rest) :
    EndsNumber (ws.chars ++ rest) := by
  obtain ⟨chars, areBlank⟩ := ws
  cases chars with
  | nil => exact h
  | cons x xs => exact endsNumber_of_isSpace (areBlank x List.mem_cons_self) (xs ++ rest)

/-! ### Numbers -/

theorem ne_sign_of_isDigit {x : Char} (hx : isDigit x = true) : x ≠ '+' ∧ x ≠ '-' := by
  constructor <;> rintro rfl <;> cases hx

theorem toOption_doubleAt (negative : Bool) (significand : Nat) (exponent : Int) (c : Cursor) :
    (doubleAt c negative significand exponent).toOption =
      (double? negative significand exponent).map (·, c) := by
  rw [doubleAt, double?]
  cases Double.ofDecimal negative significand exponent <;> rfl

theorem toOption_wholeNumber (negative : Bool) (significand : Nat) (c : Cursor) :
    (wholeNumber c negative significand).toOption =
      (whole? negative significand).map (·, c) := by
  unfold wholeNumber whole?
  split
  · rfl
  · split
    · rfl
    · exact toOption_doubleAt true significand 0 c

/-- A text that does not go on with the digits before it. -/
theorem EndsNumber.not_isDigit {rest : List Char} (h : EndsNumber rest) :
    ∀ x ∈ rest.head?, isDigit x = false :=
  fun x hx => (h x hx).1

theorem toOption_readExponent (e : Exponent) (negative : Bool) (significand : Nat)
    (exponent : Int) {rest : List Char} (hrest : EndsNumber rest) (pos : Position) :
    (readExponent negative significand exponent ⟨e.chars ++ rest, pos⟩).toOption =
      (scaled? negative significand exponent (some e)).map (·, ⟨rest, pos.afterAll e.chars⟩) := by
  obtain ⟨upper, sign, digits⟩ := e
  obtain ⟨x, xs, hxs, hx⟩ := digits.exists_cons
  have htake : ∀ pos, takeDigits ⟨x :: (xs ++ rest), pos⟩ =
      (x :: xs, ⟨rest, pos.afterAll (x :: xs)⟩) := fun pos =>
    takeDigits_append (hxs ▸ digits.areDigits) hrest.not_isDigit pos
  obtain ⟨hplus, hminus⟩ := ne_sign_of_isDigit hx
  -- whichever sign there is, the reader gets to the digits, and either all of them count or not
  rcases habsorb : absorb maxExponent 0 (x :: xs) with ⟨n, _ | ⟨d, ds⟩⟩
  · cases sign <;>
      simp [readExponent, scaled?, Exponent.chars, ExponentSign.chars, hxs, hx, htake, habsorb,
        hplus, hminus, toOption_doubleAt]
  · cases sign <;> by_cases hzero : significand = 0 <;>
      simp [readExponent, scaled?, Exponent.chars, ExponentSign.chars, hxs, hx, htake, habsorb,
        hplus, hminus, hzero, Except.toOption]

namespace Numeral

theorem exponentChars_not_isDigit (e : Option Exponent) {rest : List Char}
    (hrest : EndsNumber rest) : ∀ x ∈ (exponentChars e ++ rest).head?, isDigit x = false := by
  intro x hx
  cases e with
  | none => exact hrest.not_isDigit x hx
  | some e =>
    obtain ⟨xs, hxs | hxs⟩ := e.exists_cons
    all_goals
      rw [exponentChars, hxs] at hx
      cases hx
      rfl

theorem toOption_readFraction (f : Digits) (e : Option Exponent) (negative : Bool)
    (significand : Nat) (exponent : Int) {rest : List Char} (hrest : EndsNumber rest)
    (pos : Position) :
    (readFraction negative significand exponent
        ⟨'.' :: (f.chars ++ (exponentChars e ++ rest)), pos⟩).toOption =
      (scaled? negative (absorb maxInteger significand f.chars).1
        (exponent - (f.chars.length - (absorb maxInteger significand f.chars).2.length : Nat))
        e).map (·, ⟨rest, pos.afterAll ('.' :: (f.chars ++ exponentChars e))⟩) := by
  have htake := takeDigits_append f.areDigits (exponentChars_not_isDigit e hrest) (pos.after '.')
  have hsome : f.chars.isEmpty = false := List.isEmpty_eq_false_iff.mpr f.nonempty
  simp only [readFraction, Cursor.advance_cons, htake, hsome, Bool.false_eq_true, if_false]
  cases e with
  | none =>
    cases rest with
    | nil => simp [exponentChars, scaled?, toOption_doubleAt]
    | cons x xs =>
      obtain ⟨-, -, hlower, hupper⟩ := hrest x rfl
      simp [exponentChars, scaled?, toOption_doubleAt, hlower, hupper]
  | some e =>
    have hread := toOption_readExponent e negative (absorb maxInteger significand f.chars).1
      (exponent - (f.chars.length - (absorb maxInteger significand f.chars).2.length : Nat)) hrest
      ((pos.after '.').afterAll f.chars)
    obtain ⟨xs, hxs | hxs⟩ := e.exists_cons <;> simpa [exponentChars, hxs] using hread

theorem toOption_readTail (f : Option Digits) (e : Option Exponent) (negative : Bool)
    (significand extra : Nat) {rest : List Char} (hrest : EndsNumber rest) (pos : Position) :
    (readTail negative significand extra
        ⟨fractionChars f ++ (exponentChars e ++ rest), pos⟩).toOption =
      (tailValue? negative significand extra f e).map
        (·, ⟨rest, pos.afterAll (fractionChars f ++ exponentChars e)⟩) := by
  cases f with
  | some f => exact toOption_readFraction f e negative significand extra hrest pos
  | none =>
    cases e with
    | some e =>
      have hread := toOption_readExponent e negative significand extra hrest pos
      obtain ⟨xs, hxs | hxs⟩ := e.exists_cons <;>
        simpa [exponentChars, fractionChars, tailValue?, readTail, hxs] using hread
    | none =>
      have hplain : readTail negative significand extra ⟨rest, pos⟩ =
          if extra = 0 then wholeNumber ⟨rest, pos⟩ negative significand
          else doubleAt ⟨rest, pos⟩ negative significand extra := by
        cases rest with
        | nil => rfl
        | cons x xs =>
          obtain ⟨-, hpoint, hlower, hupper⟩ := hrest x rfl
          simp [readTail, hpoint, hlower, hupper]
      show (readTail negative significand extra ⟨rest, pos⟩).toOption =
        (if extra = 0 then whole? negative significand
          else double? negative significand extra).map (·, ⟨rest, pos⟩)
      rw [hplain]
      split
      · exact toOption_wholeNumber negative significand ⟨rest, pos⟩
      · exact toOption_doubleAt negative significand extra ⟨rest, pos⟩

theorem tail_not_isDigit (f : Option Digits) (e : Option Exponent) {rest : List Char}
    (hrest : EndsNumber rest) :
    ∀ x ∈ (fractionChars f ++ (exponentChars e ++ rest)).head?, isDigit x = false := by
  cases f with
  | none => exact exponentChars_not_isDigit e hrest
  | some f =>
    intro x hx
    cases hx
    rfl

/-- The digits before the point are counted, and the reader goes on behind them. -/
theorem readNumber_magnitude (n : Numeral) {rest : List Char} (hrest : EndsNumber rest)
    (pos : Position) :
    readNumber n.negative ⟨n.magnitude ++ rest, pos⟩ =
      readTail n.negative (absorb maxInteger 0 n.whole.chars).1
        (absorb maxInteger 0 n.whole.chars).2.length
        ⟨fractionChars n.fraction ++ (exponentChars n.exponent ++ rest),
          pos.afterAll n.whole.chars⟩ := by
  have hstop := tail_not_isDigit n.fraction n.exponent hrest
  simp only [magnitude, List.append_assoc]
  rcases n.whole_cases with hzero | ⟨d, ds, hds, hd, hnonzero⟩
  · -- what follows a zero is no digit
    rw [hzero, show absorb maxInteger 0 ['0'] = (0, []) from rfl]
    cases htext : fractionChars n.fraction ++ (exponentChars n.exponent ++ rest) with
    | nil => simp [readNumber]
    | cons x xs =>
      have hx : isDigit x = false := hstop x (by rw [htext]; rfl)
      simp [readNumber, hx]
  · have htake := takeDigits_append n.whole.areDigits hstop pos
    rw [hds, List.cons_append] at htake ⊢
    simp [readNumber, hd, htake]

/-- A number, its sign passed, is read as the number it stands for. -/
theorem toOption_readNumber (n : Numeral) {rest : List Char} (hrest : EndsNumber rest)
    (pos : Position) :
    (readNumber n.negative ⟨n.magnitude ++ rest, pos⟩).toOption =
      n.value?.map (·, ⟨rest, pos.afterAll n.magnitude⟩) := by
  have hpos : pos.afterAll n.magnitude = (pos.afterAll n.whole.chars).afterAll
      (fractionChars n.fraction ++ exponentChars n.exponent) := Position.afterAll_append ..
  rw [n.readNumber_magnitude hrest, toOption_readTail n.fraction n.exponent _ _ _ hrest, hpos]
  rfl

end Numeral

/-! ### Strings -/

theorem readHex_known {a b c d : Char} {n : Nat} (h : hexValue4? a b c d = some n)
    (rest : List Char) (pos : Position) :
    readHex ⟨a :: b :: c :: d :: rest, pos⟩ = .ok (n, ⟨rest, pos.afterAll [a, b, c, d]⟩) := by
  simp [readHex, h]

theorem ne_of_escaped? {c x : Char} (h : escaped? c = some x) : c ≠ 'u' := by
  rintro rfl
  cases h

theorem readCharsFrom_plain {c : Char} (hc : ¬c.toNat < 0x20 ∧ c ≠ '"' ∧ c ≠ '\\') (b : Char)
    (bound done cs : List Char) (pos : Position) :
    readCharsFrom (b :: bound) done ⟨c :: cs, pos⟩ =
      readCharsFrom bound (c :: done) ⟨cs, pos.after c⟩ := by
  simp [readCharsFrom, hc]

theorem readCharsFrom_escape (b : Char) (bound done cs : List Char) (pos : Position) :
    (readCharsFrom (b :: bound) done ⟨'\\' :: cs, pos⟩).toOption =
      (readEscape ⟨cs, pos.after '\\'⟩).toOption.bind fun (x, c) =>
        (readCharsFrom bound (x :: done) c).toOption := by
  simp only [readCharsFrom, Cursor.advance_cons]
  cases readEscape ⟨cs, pos.after '\\'⟩ <;> rfl

theorem readEscape_letter {c x : Char} (h : escaped? c = some x) (cs : List Char)
    (pos : Position) : readEscape ⟨c :: cs, pos⟩ = .ok (x, ⟨cs, pos.after c⟩) := by
  -- the letter is not the one that announces a code unit
  have hunit : c ≠ 'u' := ne_of_escaped? h
  simp [readEscape, h]

/-- What a code unit that is not the first half of a pair does to the reader. -/
theorem readUnit_single {a b c d : Char} {n : Nat} (h : hexValue4? a b c d = some n)
    (hfirst : n < 0xd800 ∨ 0xdbff < n) (cs : List Char) (pos : Position) :
    (readUnit ⟨a :: b :: c :: d :: cs, pos⟩).toOption =
      if 0xdc00 ≤ n ∧ n ≤ 0xdfff then none
      else some (Char.ofNat n, ⟨cs, pos.afterAll [a, b, c, d]⟩) := by
  rw [readUnit, toOption_bind, readHex_known h, toOption_ok, Option.bind_some]
  simp only [hfirst, if_true]
  split <;> rfl

/-- Behind the first half of a pair the second half has to follow at once. -/
theorem readUnit_pair {a b c d : Char} {n : Nat} (h : hexValue4? a b c d = some n)
    (hfirst : ¬(n < 0xd800 ∨ 0xdbff < n)) (cs : List Char) (pos : Position) :
    (readUnit ⟨a :: b :: c :: d :: cs, pos⟩).toOption =
      (readPairing '\\' ⟨cs, pos.afterAll [a, b, c, d]⟩).toOption.bind fun c =>
        (readPairing 'u' c).toOption.bind fun c =>
          (readHex c).toOption.bind fun (m, c) =>
            if m < 0xdc00 ∨ 0xdfff < m then none
            else some (Char.ofNat ((n - 0xd800) * 0x400 + (m - 0xdc00) + 0x10000), c) := by
  have hsecond : ¬(0xdc00 ≤ n ∧ n ≤ 0xdfff) := by omega
  rw [readUnit, toOption_bind, readHex_known h, toOption_ok, Option.bind_some]
  simp only [hfirst, hsecond, if_false, toOption_bind]
  congr 1
  funext c₁
  congr 1
  funext c₂
  congr 1
  funext read
  split <;> rfl

namespace Quotation

/-- A first half of a pair that no second half follows stands for nothing, and is not read. -/
theorem toOption_readUnit_lone {a b c d : Char} {n : Nat} (known : hexValue4? a b c d = some n)
    (hfirst : ¬(n < 0xd800 ∨ 0xdbff < n)) {pieces : List Piece}
    (hlone : ∀ a b c d m known rest, pieces ≠ .codeUnit a b c d m known :: rest)
    (rest : List Char) (pos : Position) :
    denoted? (.codeUnit a b c d n known :: pieces) = none ∧
      (readUnit ⟨a :: b :: c :: d :: (pieces.flatMap Piece.chars ++ '"' :: rest), pos⟩).toOption =
        none := by
  have hsecond : ¬(0xdc00 ≤ n ∧ n ≤ 0xdfff) := by omega
  rw [readUnit_pair known hfirst]
  cases pieces with
  | nil => simp [denoted?, hsecond, hfirst, readPairing]
  | cons piece pieces =>
    cases piece with
    | plain c hc => simp [denoted?, hsecond, hfirst, readPairing, Piece.chars, Ne.symm hc.2.2]
    | letter c x hc =>
      have hunit : 'u' ≠ c := Ne.symm (ne_of_escaped? hc)
      simp [denoted?, hsecond, hfirst, readPairing, Piece.chars, hunit]
    | codeUnit a b c d m known => exact absurd rfl (hlone a b c d m known pieces)

end Quotation

theorem toOption_readCharsFrom (pieces : List Piece) {bound : List Char}
    (h : pieces.length < bound.length) (done rest : List Char) (pos : Position) :
    (readCharsFrom bound done ⟨pieces.flatMap Piece.chars ++ '"' :: rest, pos⟩).toOption =
      (Quotation.denoted? pieces).map fun cs =>
        (String.ofList (done.reverse ++ cs),
          ⟨rest, pos.afterAll (pieces.flatMap Piece.chars ++ ['"'])⟩) := by
  induction pieces using Quotation.denoted?.induct generalizing bound done pos with
  | case1 =>
    obtain ⟨b, bound, rfl⟩ := List.exists_cons_of_length_pos h
    simp [readCharsFrom, Quotation.denoted?, Except.toOption]
  | case2 c hc pieces ih =>
    obtain ⟨b, bound, rfl⟩ := List.exists_cons_of_length_pos (Nat.zero_lt_of_lt h)
    have hrounds : pieces.length < bound.length := by simpa using h
    simp [Quotation.denoted?, Piece.chars, readCharsFrom_plain hc, ih hrounds, Function.comp_def]
  | case3 c x known pieces ih =>
    obtain ⟨b, bound, rfl⟩ := List.exists_cons_of_length_pos (Nat.zero_lt_of_lt h)
    have hrounds : pieces.length < bound.length := by simpa using h
    simp [Quotation.denoted?, Piece.chars, readCharsFrom_escape, readEscape_letter known,
      ih hrounds, Function.comp_def]
  | case4 a b c d n known pieces hsecond =>
    obtain ⟨r, bound, rfl⟩ := List.exists_cons_of_length_pos (Nat.zero_lt_of_lt h)
    have hfirst : n < 0xd800 ∨ 0xdbff < n := by omega
    simp [Quotation.denoted?_second hsecond, Piece.chars, readCharsFrom_escape, readEscape,
      readUnit_single known hfirst, hsecond]
  | case5 a b c d n known pieces hsecond hfirst ih =>
    obtain ⟨r, bound, rfl⟩ := List.exists_cons_of_length_pos (Nat.zero_lt_of_lt h)
    have hrounds : pieces.length < bound.length := by simpa using h
    simp [Quotation.denoted?_single hsecond hfirst, Piece.chars, readCharsFrom_escape, readEscape,
      readUnit_single known hfirst, hsecond, ih hrounds, Function.comp_def]
  | case6 a b c d n known hsecond hfirst a' b' c' d' m known' pieces hm =>
    obtain ⟨r, bound, rfl⟩ := List.exists_cons_of_length_pos (Nat.zero_lt_of_lt h)
    simp [Quotation.denoted?, Piece.chars, readCharsFrom_escape, readEscape,
      readUnit_pair known hfirst, readPairing, readHex_known known', hsecond, hfirst, hm]
  | case7 a b c d n known hsecond hfirst a' b' c' d' m known' pieces hm ih =>
    obtain ⟨r, bound, rfl⟩ := List.exists_cons_of_length_pos (Nat.zero_lt_of_lt h)
    have hrounds : pieces.length < bound.length := by
      simp only [List.length_cons] at h
      omega
    simp [Quotation.denoted?, Piece.chars, readCharsFrom_escape, readEscape,
      readUnit_pair known hfirst, readPairing, readHex_known known', hsecond, hfirst, hm,
      ih hrounds, Function.comp_def]
  | case8 a b c d n known pieces hsecond hfirst hlone =>
    obtain ⟨r, bound, rfl⟩ := List.exists_cons_of_length_pos (Nat.zero_lt_of_lt h)
    obtain ⟨hnone, hread⟩ := Quotation.toOption_readUnit_lone known hfirst
      (fun a b c d m known rest heq => hlone a b c d m known rest heq) rest
      ((pos.after '\\').after 'u')
    simp [hnone, Piece.chars, readCharsFrom_escape, readEscape, hread]

/-- A string, its opening quote passed, is read as the string it stands for. -/
theorem toOption_readString (q : Quotation) (rest : List Char) (pos : Position) :
    (readString (Cursor.advance ⟨q.chars ++ rest, pos⟩)).toOption =
      q.content?.map (·, ⟨rest, pos.afterAll q.chars⟩) := by
  have hrounds : q.pieces.length < (q.pieces.flatMap Piece.chars ++ '"' :: rest).length := by
    have := length_pieces_le q.pieces
    rw [List.length_append, List.length_cons]
    omega
  have hread := toOption_readCharsFrom q.pieces hrounds [] rest (pos.after '"')
  simpa [readString, Quotation.chars, Quotation.content?, Function.comp_def] using hread

end Json

end LintDiscovery
