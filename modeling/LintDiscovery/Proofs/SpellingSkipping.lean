/-
Spelled values that are ignored.

The reader that ignores values passes every spelled one, whether or not it stands for a value:
`Spelling.skipValue_append` has no condition on how deep its brackets nest, on the size of its
numbers or on the code units in its strings.

* `Numeral.skipNumber_append`, `skipString_append` — numbers and strings;
* `Spelling.IsSkipped` — what a value has to do to the reader, which keeps the open brackets in a
  list and counts its rounds;
* `Member.Enters` — what has to stand before the value of an item or a field;
* `Member.isSkipped_of_members` — an array or an object is passed if its members are.

Items and fields are taken as members alike, so that the induction over a value has one case for
both kinds of bracket. What it carries is the account of rounds: no text uses up more of them than
it has characters.
-/
import LintDiscovery.Json.Skipper
import LintDiscovery.Proofs.SpellingReading

namespace LintDiscovery

namespace Json

/-! ### Numbers -/

theorem skipDigits_append (d : Digits) {rest : List Char}
    (hrest : ∀ x ∈ rest.head?, isDigit x = false) (pos : Position) :
    skipDigits ⟨d.chars ++ rest, pos⟩ = ⟨rest, pos.afterAll d.chars⟩ := by
  rw [skipDigits, Cursor.skipWhile_append d.areDigits, Cursor.skipWhile_stop hrest]

theorem skipSomeDigits_append (d : Digits) {rest : List Char}
    (hrest : ∀ x ∈ rest.head?, isDigit x = false) (pos : Position) :
    skipSomeDigits ⟨d.chars ++ rest, pos⟩ = .ok ⟨rest, pos.afterAll d.chars⟩ := by
  have hskip := skipDigits_append d hrest pos
  obtain ⟨x, xs, hxs, hx⟩ := d.exists_cons
  rw [hxs, List.cons_append] at hskip ⊢
  simp [skipSomeDigits, hx, hskip]

namespace Numeral

theorem skipExponent_append (e : Option Exponent) {rest : List Char} (hrest : EndsNumber rest)
    (pos : Position) :
    skipExponent ⟨exponentChars e ++ rest, pos⟩ =
      .ok ⟨rest, pos.afterAll (exponentChars e)⟩ := by
  cases e with
  | none =>
    cases rest with
    | nil => rfl
    | cons x xs =>
      obtain ⟨-, -, hlower, hupper⟩ := hrest x rfl
      simp [exponentChars, skipExponent, hlower, hupper]
  | some e =>
    obtain ⟨upper, sign, digits⟩ := e
    have hskip := skipSomeDigits_append digits hrest.not_isDigit
    obtain ⟨x, xs, hxs, hx⟩ := digits.exists_cons
    obtain ⟨hplus, hminus⟩ := ne_sign_of_isDigit hx
    rw [hxs, List.cons_append] at hskip
    cases upper <;> cases sign <;>
      simp [exponentChars, Exponent.chars, Exponent.letter, ExponentSign.chars, skipExponent, hxs,
        hskip, hplus, hminus]

theorem skipTail_append (f : Option Digits) (e : Option Exponent) {rest : List Char}
    (hrest : EndsNumber rest) (pos : Position) :
    skipTail ⟨fractionChars f ++ (exponentChars e ++ rest), pos⟩ =
      .ok ⟨rest, pos.afterAll (fractionChars f ++ exponentChars e)⟩ := by
  cases f with
  | some f =>
    show (skipSomeDigits ⟨f.chars ++ (exponentChars e ++ rest), pos.after '.'⟩ >>= skipExponent) = _
    rw [skipSomeDigits_append f (exponentChars_not_isDigit e hrest)]
    show skipExponent _ = _
    rw [skipExponent_append e hrest]
    simp [fractionChars]
  | none =>
    have hpoint : ∀ xs, exponentChars e ++ rest ≠ '.' :: xs := by
      intro xs heq
      cases e with
      | none =>
        rw [exponentChars, List.nil_append] at heq
        exact (hrest '.' (by rw [heq]; rfl)).2.1 rfl
      | some e =>
        obtain ⟨ys, hys | hys⟩ := e.exists_cons
        all_goals
          rw [exponentChars, hys] at heq
          cases heq
    have := skipExponent_append e hrest pos
    simp only [fractionChars, List.nil_append]
    rw [← this]
    unfold skipTail
    split
    · exact absurd ‹_› (hpoint _)
    · rfl

theorem skipNumber_append (n : Numeral) {rest : List Char} (hrest : EndsNumber rest)
    (pos : Position) :
    skipNumber ⟨n.magnitude ++ rest, pos⟩ = .ok ⟨rest, pos.afterAll n.magnitude⟩ := by
  have hstop := tail_not_isDigit n.fraction n.exponent hrest
  have htail := skipTail_append n.fraction n.exponent hrest (pos.afterAll n.whole.chars)
  rw [magnitude, Position.afterAll_append, ← htail]
  simp only [List.append_assoc]
  rcases n.whole_cases with hzero | ⟨d, ds, hds, hd, hnonzero⟩
  · -- what follows a zero is no digit
    rw [hzero]
    cases htext : fractionChars n.fraction ++ (exponentChars n.exponent ++ rest) with
    | nil => rfl
    | cons x xs =>
      have hx : isDigit x = false := hstop x (by rw [htext]; rfl)
      simp [skipNumber, hx]
  · have hskip := skipDigits_append n.whole hstop pos
    rw [hds, List.cons_append] at hskip ⊢
    simp [skipNumber, hd, hskip]

end Numeral

/-! ### Strings -/

theorem skipCharsFrom_pieces (pieces : List Piece) {bound : List Char}
    (h : pieces.length < bound.length) (rest : List Char) (pos : Position) :
    skipCharsFrom bound ⟨pieces.flatMap Piece.chars ++ '"' :: rest, pos⟩ =
      .ok ⟨rest, pos.afterAll (pieces.flatMap Piece.chars ++ ['"'])⟩ := by
  induction pieces generalizing bound pos with
  | nil =>
    obtain ⟨b, bound, rfl⟩ := List.exists_cons_of_length_pos h
    simp [skipCharsFrom]
  | cons piece pieces ih =>
    obtain ⟨b, bound, rfl⟩ := List.exists_cons_of_length_pos (Nat.zero_lt_of_lt h)
    have hrounds : pieces.length < bound.length := by simpa using h
    cases piece with
    | plain c hc => simp [skipCharsFrom, Piece.chars, hc, ih hrounds]
    | letter c x known =>
      have hunit : c ≠ 'u' := ne_of_escaped? known
      simp [skipCharsFrom, skipEscape, Piece.chars, known, ih hrounds]
    | codeUnit a b c d n known =>
      have hread : ∀ cs pos, skipEscape ⟨'u' :: a :: b :: c :: d :: cs, pos⟩ =
          .ok ⟨cs, (pos.after 'u').afterAll [a, b, c, d]⟩ := fun cs pos => by
        rw [skipEscape]
        show (do return (← readHex ⟨a :: b :: c :: d :: cs, pos.after 'u'⟩).2) = _
        rw [readHex_known known]
        rfl
      simp [skipCharsFrom, Piece.chars, hread, ih hrounds]

theorem skipString_append (q : Quotation) (rest : List Char) (pos : Position) :
    skipString (Cursor.advance ⟨q.chars ++ rest, pos⟩) = .ok ⟨rest, pos.afterAll q.chars⟩ := by
  have hrounds : q.pieces.length < (q.pieces.flatMap Piece.chars ++ '"' :: rest).length := by
    have := length_pieces_le q.pieces
    rw [List.length_append, List.length_cons]
    omega
  have hskip := skipCharsFrom_pieces q.pieces hrounds rest (pos.after '"')
  simpa [skipString, Quotation.chars] using hskip

/-! ### Members -/

/-- The character that opens a bracket. -/
def Bracket.open : Bracket → Char
  | .list => '['
  | .object => '\x7b'

/-- The character that closes a bracket. -/
def Bracket.close : Bracket → Char
  | .list => ']'
  | .object => '\x7d'

/-- An item or a field: what stands before the value, the value, and the blanks behind it. -/
structure Member where
  lead : List Char
  value : Spelling
  behind : Blanks

namespace Member

/-- An item of an array. -/
def ofItem : Blanks × Spelling × Blanks → Member
  | (before, t, behind) => ⟨before.chars, t, behind⟩

/-- A field of an object. -/
def ofField : Lead × Spelling × Blanks → Member
  | (lead, t, behind) => ⟨lead.chars, t, behind⟩

/-- Members as text, the first of them with or without a comma. -/
def allChars (first : Bool) : List Member → List Char
  | [] => []
  | m :: rest =>
    separator first ++ (m.lead ++ (m.value.chars ++ (m.behind.chars ++ allChars false rest)))

theorem allChars_items (first : Bool) (items : List (Blanks × Spelling × Blanks)) :
    allChars first (items.map ofItem) = Spelling.itemsChars first items := by
  induction items generalizing first with
  | nil => rfl
  | cons item items ih => rw [List.map_cons, allChars, ih]; rfl

theorem allChars_fields (first : Bool) (fields : List (Lead × Spelling × Blanks)) :
    allChars first (fields.map ofField) = Spelling.fieldsChars first fields := by
  induction fields generalizing first with
  | nil => rfl
  | cons field fields ih => rw [List.map_cons, allChars, ih]; rfl

end Member

theorem skipValueFrom_blanks (ws : Blanks) (b : Char) (bound : List Char) (outer : List Bracket)
    (cs : List Char) (pos : Position) :
    skipValueFrom (b :: bound) outer ⟨ws.chars ++ cs, pos⟩ =
      skipValueFrom (b :: bound) outer ⟨cs, pos.afterAll ws.chars⟩ := by
  rw [skipValueFrom, skipValueFrom, skipSpace_blanks]

theorem skipRestFrom_blanks (ws : Blanks) (x : Char) (bound : List Char) (b : Bracket)
    (outer : List Bracket) (cs : List Char) (pos : Position) :
    skipRestFrom (x :: bound) (b :: outer) ⟨ws.chars ++ cs, pos⟩ =
      skipRestFrom (x :: bound) (b :: outer) ⟨cs, pos.afterAll ws.chars⟩ := by
  rw [skipRestFrom, skipRestFrom, skipSpace_blanks]

theorem skipKey_quotation (key : Quotation) (cs : List Char) (pos : Position) :
    skipKey ⟨key.chars ++ cs, pos⟩ = (do
      let c := (← skipString (Cursor.advance ⟨key.chars ++ cs, pos⟩)).skipSpace
      match c.rest with
      | [] => .error (c.fault .endOfObject)
      | ':' :: _ => return c.advance
      | _ => .error (c.peekFault .expectedColon)) :=
  rfl

theorem skipKey_lead (before beforeColon : Blanks) (key : Quotation) (cs : List Char)
    (pos : Position) :
    skipKey ⟨before.chars ++ (key.chars ++ (beforeColon.chars ++ ':' :: cs)), pos⟩ =
      .ok ⟨cs, pos.afterAll (before.chars ++ (key.chars ++ (beforeColon.chars ++ [':'])))⟩ := by
  have hskip := skipString_append key (beforeColon.chars ++ ':' :: cs) (pos.afterAll before.chars)
  have hkey : skipKey ⟨before.chars ++ (key.chars ++ (beforeColon.chars ++ ':' :: cs)), pos⟩ =
      skipKey ⟨key.chars ++ (beforeColon.chars ++ ':' :: cs), pos.afterAll before.chars⟩ := by
    unfold skipKey
    rw [skipSpace_blanks]
  rw [hkey, skipKey_quotation, hskip]
  simp only [bind, Except.bind, skipSpace_blanks, Position.afterAll_append]
  rfl

/-- What a value does to the reader that ignores it: the reader stands behind it, among the same
open brackets, and has used up no more rounds than the value has characters. -/
def Spelling.IsSkipped (t : Spelling) : Prop :=
  ∀ (bound : List Char) (outer : List Bracket) (rest : List Char) (pos : Position),
    t.chars.length ≤ bound.length → EndsNumber rest →
      ∃ left : List Char, bound.length ≤ left.length + t.chars.length ∧
        skipValueFrom bound outer ⟨t.chars ++ rest, pos⟩ =
          skipRestFrom left outer ⟨rest, pos.afterAll t.chars⟩

namespace Member

/-- What stands before the value of a member leads the reader to this value, behind the opening
bracket as well as behind a comma. -/
structure Enters (b : Bracket) (m : Member) : Prop where
  opening : ∀ x bound outer cs pos, ∃ c,
    skipOpening b ⟨m.lead ++ (m.value.chars ++ cs), pos⟩ = .ok (true, c) ∧
      skipValueFrom (x :: bound) outer c =
        skipValueFrom (x :: bound) outer ⟨m.value.chars ++ cs, pos.afterAll m.lead⟩
  further : ∀ x bound outer cs pos, ∃ c,
    skipToValue b ⟨m.lead ++ (m.value.chars ++ cs), pos⟩ = .ok c ∧
      skipValueFrom (x :: bound) outer c =
        skipValueFrom (x :: bound) outer ⟨m.value.chars ++ cs, pos.afterAll m.lead⟩

theorem enters_ofItem (item : Blanks × Spelling × Blanks) : (ofItem item).Enters .list := by
  obtain ⟨before, t, behind⟩ := item
  refine ⟨fun x bound outer cs pos => ⟨⟨t.chars ++ cs, pos.afterAll before.chars⟩, ?_, rfl⟩,
    fun x bound outer cs pos => ⟨_, rfl, skipValueFrom_blanks before x bound outer _ pos⟩⟩
  obtain ⟨y, ys, hys, hspace, hend⟩ := t.exists_chars_cons
  simp only [ofItem, hys, List.cons_append]
  unfold skipOpening
  rw [skipSpace_blanks, Cursor.skipSpace_cons hspace]
  simp only [Bracket.closedBy, beq_eq_false_iff_ne.mpr hend]
  rfl

theorem enters_ofField (field : Lead × Spelling × Blanks) : (ofField field).Enters .object := by
  obtain ⟨⟨before, key, beforeColon, afterColon⟩, t, behind⟩ := field
  have hkey := fun cs pos => skipKey_lead before beforeColon key (afterColon.chars ++ cs) pos
  refine ⟨fun x bound outer cs pos => ?_, fun x bound outer cs pos => ?_⟩
  · refine ⟨⟨afterColon.chars ++ (t.chars ++ cs),
      pos.afterAll (before.chars ++ (key.chars ++ (beforeColon.chars ++ [':'])))⟩, ?_, ?_⟩
    · have hspace : Cursor.skipSpace ⟨key.chars ++ (beforeColon.chars ++ ':' :: (afterColon.chars ++
          (t.chars ++ cs))), pos.afterAll before.chars⟩ = ⟨key.chars ++ (beforeColon.chars ++ ':' ::
          (afterColon.chars ++ (t.chars ++ cs))), pos.afterAll before.chars⟩ := rfl
      have hkey := skipKey_lead Blanks.none beforeColon key (afterColon.chars ++ (t.chars ++ cs))
        (pos.afterAll before.chars)
      simp only [Blanks.none, List.nil_append] at hkey
      simp only [ofField, Lead.chars, List.append_assoc, List.cons_append]
      unfold skipOpening
      rw [skipSpace_blanks, hspace]
      show (do return (true, ← skipKey ⟨key.chars ++ _, _⟩)) = _
      rw [hkey, Position.afterAll_append _ before.chars]
      rfl
    · rw [skipValueFrom_blanks]
      simp [ofField, Lead.chars]
  · refine ⟨⟨afterColon.chars ++ (t.chars ++ cs),
      pos.afterAll (before.chars ++ (key.chars ++ (beforeColon.chars ++ [':'])))⟩, ?_, ?_⟩
    · simpa [ofField, Lead.chars, skipToValue] using hkey (t.chars ++ cs) pos
    · rw [skipValueFrom_blanks]
      simp [ofField, Lead.chars]

theorem skipRestFrom_comma {b : Bracket} {cs : List Char} {c : Cursor} {pos : Position}
    (hto : skipToValue b ⟨cs, pos.after ','⟩ = .ok c) (x : Char) (bound : List Char)
    (outer : List Bracket) :
    skipRestFrom (x :: bound) (b :: outer) ⟨',' :: cs, pos⟩ =
      skipValueFrom bound (b :: outer) c := by
  have hspace : Cursor.skipSpace ⟨',' :: cs, pos⟩ = ⟨',' :: cs, pos⟩ := rfl
  have hadvance : Cursor.advance ⟨',' :: cs, pos⟩ = ⟨cs, pos.after ','⟩ := rfl
  rw [skipRestFrom]
  simp only [hspace, hadvance, if_true, hto]

theorem skipValueFrom_open (b : Bracket) (x : Char) (bound : List Char) (outer : List Bracket)
    (cs : List Char) (pos : Position) :
    skipValueFrom (x :: bound) outer ⟨b.open :: cs, pos⟩ =
      match skipOpening b ⟨cs, pos.after b.open⟩ with
      | .ok (true, c) => skipValueFrom bound (b :: outer) c
      | .ok (false, c) => skipRestFrom bound outer c
      | .error f => .error f := by
  rw [skipValueFrom]
  cases b <;> rfl

theorem isSkipped_of_plain {t : Spelling}
    (hplain : ∀ rest, Bracket.opened? (t.chars ++ rest) = none)
    (hskip : ∀ rest pos, EndsNumber rest →
      skipPlain ⟨t.chars ++ rest, pos⟩ = .ok ⟨rest, pos.afterAll t.chars⟩) :
    t.IsSkipped := by
  intro bound outer rest pos h hrest
  have hpos := t.length_chars_pos
  obtain ⟨x, bound, rfl⟩ := List.exists_cons_of_length_pos (show 0 < bound.length by omega)
  refine ⟨bound, by rw [List.length_cons]; omega, ?_⟩
  have hspace : Cursor.skipSpace ⟨t.chars ++ rest, pos⟩ = ⟨t.chars ++ rest, pos⟩ := by
    obtain ⟨y, ys, hys, hy, -⟩ := t.exists_chars_cons
    rw [hys, List.cons_append, Cursor.skipSpace_cons hy]
  rw [skipValueFrom, hspace]
  simp only [hplain, hskip rest pos hrest]

theorem isSkipped_number (n : Numeral) : (Spelling.number n).IsSkipped := by
  obtain ⟨d, ds, hds, hd⟩ := n.exists_magnitude_cons
  obtain ⟨hn, ht, hf, hminus, hquote, hbracket, hbrace⟩ := ne_of_isDigit hd
  have hchars : (Spelling.number n).chars = (if n.negative then ['-'] else []) ++ n.magnitude :=
    rfl
  refine isSkipped_of_plain (fun rest => ?_) fun rest pos hrest => ?_
  · rw [hchars]
    split
    · rfl
    · simp [hds, Bracket.opened?, hbracket, hbrace]
  · rw [hchars]
    split
    · exact n.skipNumber_append hrest (pos.after '-')
    · have := n.skipNumber_append hrest pos
      rw [hds, List.cons_append] at this
      simpa [hds, skipPlain, hd] using this

theorem endsNumber_allChars (members : List Member) (inner : Blanks) (b : Bracket)
    (rest : List Char) :
    EndsNumber (allChars false members ++ (inner.chars ++ b.close :: rest)) := by
  cases members with
  | nil =>
    refine endsNumber_blanks inner (endsNumber_cons ?_ rest)
    cases b <;> simp [Bracket.close]
  | cons m members => exact endsNumber_cons (.inl rfl) _

/-- The members still to come with the bracket behind them, as text. -/
def ending (b : Bracket) (members : List Member) (inner : Blanks) : List Char :=
  allChars false members ++ (inner.chars ++ [b.close])

/-- What the members still to come do to the reader that ignores them. -/
def RestIsSkipped (b : Bracket) (members : List Member) (inner : Blanks) : Prop :=
  ∀ (bound : List Char) (outer : List Bracket) (rest : List Char) (pos : Position),
    (ending b members inner).length ≤ bound.length →
      ∃ left : List Char, bound.length ≤ left.length + (ending b members inner).length ∧
        skipRestFrom bound (b :: outer) ⟨ending b members inner ++ rest, pos⟩ =
          skipRestFrom left outer ⟨rest, pos.afterAll (ending b members inner)⟩

theorem length_ending_pos (b : Bracket) (members : List Member) (inner : Blanks) :
    0 < (ending b members inner).length := by
  simp only [ending, List.length_append, List.length_singleton]
  omega

/-- A value leaves rounds enough for the members behind it. -/
theorem skipValueFrom_of_rest {b : Bracket} {m : Member} {members : List Member} {inner : Blanks}
    (hvalue : m.value.IsSkipped) (hmembers : RestIsSkipped b members inner) (bound : List Char)
    (outer : List Bracket) (rest : List Char) (pos : Position)
    (h : (m.value.chars ++ (m.behind.chars ++ ending b members inner)).length ≤ bound.length) :
    ∃ left : List Char,
      bound.length ≤
          left.length + (m.value.chars ++ (m.behind.chars ++ ending b members inner)).length ∧
        skipValueFrom bound (b :: outer)
            ⟨m.value.chars ++ (m.behind.chars ++ (ending b members inner ++ rest)), pos⟩ =
          skipRestFrom left outer
            ⟨rest, pos.afterAll (m.value.chars ++ (m.behind.chars ++ ending b members inner))⟩ := by
  simp only [List.length_append] at h ⊢
  have hpos := length_ending_pos b members inner
  have hends : EndsNumber (m.behind.chars ++ (ending b members inner ++ rest)) := by
    have := endsNumber_blanks m.behind (endsNumber_allChars members inner b rest)
    simpa [ending] using this
  -- what the value leaves is at least as long as the rest of the text
  obtain ⟨left, hleft, hskip⟩ := hvalue bound (b :: outer) _ pos (by omega) hends
  obtain ⟨x, left, rfl⟩ := List.exists_cons_of_length_pos (show 0 < left.length by omega)
  obtain ⟨left', hleft', hrest⟩ := hmembers (x :: left) outer rest
    ((pos.afterAll m.value.chars).afterAll m.behind.chars) (by omega)
  refine ⟨left', by omega, ?_⟩
  rw [hskip, skipRestFrom_blanks, hrest]
  simp only [Position.afterAll_append]

theorem restIsSkipped (b : Bracket) (members : List Member)
    (henters : ∀ m ∈ members, m.Enters b) (hskipped : ∀ m ∈ members, m.value.IsSkipped)
    (inner : Blanks) : RestIsSkipped b members inner := by
  induction members with
  | nil =>
    intro bound outer rest pos h
    have hpos := length_ending_pos b [] inner
    obtain ⟨x, bound, rfl⟩ := List.exists_cons_of_length_pos (show 0 < bound.length by omega)
    refine ⟨bound, by rw [List.length_cons]; omega, ?_⟩
    simp only [ending, allChars, List.nil_append, List.append_assoc, List.singleton_append,
      skipRestFrom_blanks, Position.afterAll_append]
    cases b <;> rfl
  | cons m members ih =>
    intro bound outer rest pos h
    have hmembers := ih (fun m' hm' => henters m' (List.mem_cons_of_mem m hm'))
      (fun m' hm' => hskipped m' (List.mem_cons_of_mem m hm'))
    have hending : ending b (m :: members) inner = ',' :: (m.lead ++ (m.value.chars ++
        (m.behind.chars ++ ending b members inner))) := by
      simp [ending, allChars, separator]
    have hvalue := m.value.length_chars_pos
    rw [hending] at h ⊢
    simp only [List.length_cons, List.length_append] at h ⊢
    -- the comma takes a round, and the value and the members behind it have theirs
    obtain ⟨x, bound, rfl⟩ := List.exists_cons_of_length_pos (show 0 < bound.length by omega)
    rw [List.length_cons] at h ⊢
    obtain ⟨y, bound, rfl⟩ := List.exists_cons_of_length_pos (show 0 < bound.length by omega)
    obtain ⟨c, hto, henter⟩ := (henters m List.mem_cons_self).further y bound (b :: outer)
      (m.behind.chars ++ (ending b members inner ++ rest)) (pos.after ',')
    obtain ⟨left, hleft, hskip⟩ := skipValueFrom_of_rest (hskipped m List.mem_cons_self) hmembers
      (y :: bound) outer rest ((pos.after ',').afterAll m.lead)
      (by simp only [List.length_append]; omega)
    simp only [List.length_append] at hleft
    refine ⟨left, by omega, ?_⟩
    simp only [List.cons_append, List.append_assoc]
    rw [skipRestFrom_comma hto, henter, hskip]
    simp only [Position.afterAll_cons, Position.afterAll_append]

/-- An array or an object is passed, if every value in it is. -/
theorem isSkipped_of_members (b : Bracket) (members : List Member)
    (henters : ∀ m ∈ members, m.Enters b) (hskipped : ∀ m ∈ members, m.value.IsSkipped)
    (inner : Blanks) {t : Spelling}
    (ht : t.chars = b.open :: (allChars true members ++ (inner.chars ++ [b.close]))) :
    t.IsSkipped := by
  intro bound outer rest pos h _
  rw [ht] at h ⊢
  simp only [List.length_cons, List.length_append, List.length_nil] at h ⊢
  obtain ⟨x, bound, rfl⟩ := List.exists_cons_of_length_pos (show 0 < bound.length by omega)
  rw [List.length_cons] at h ⊢
  simp only [List.cons_append, List.append_assoc, List.nil_append]
  rw [skipValueFrom_open]
  cases members with
  | nil =>
    refine ⟨bound, by omega, ?_⟩
    simp only [allChars, List.nil_append, Position.afterAll_cons, Position.afterAll_append]
    have hopening : skipOpening b ⟨inner.chars ++ b.close :: rest, pos.after b.open⟩ =
        .ok (false, ⟨rest, ((pos.after b.open).afterAll inner.chars).after b.close⟩) := by
      unfold skipOpening
      rw [skipSpace_blanks]
      cases b <;> rfl
    rw [hopening]
    rfl
  | cons m members =>
    -- the bracket takes a round, and behind it stands the first value with the other members
    have hmembers := restIsSkipped b members
      (fun m' hm' => henters m' (List.mem_cons_of_mem m hm'))
      (fun m' hm' => hskipped m' (List.mem_cons_of_mem m hm')) inner
    have hvalue := m.value.length_chars_pos
    simp only [allChars, separator, if_true, List.nil_append, List.length_append] at h ⊢
    obtain ⟨y, bound, rfl⟩ := List.exists_cons_of_length_pos (show 0 < bound.length by omega)
    obtain ⟨c, hopening, henter⟩ := (henters m List.mem_cons_self).opening y bound (b :: outer)
      (m.behind.chars ++ (ending b members inner ++ rest)) (pos.after b.open)
    obtain ⟨left, hleft, hskip⟩ := skipValueFrom_of_rest (hskipped m List.mem_cons_self) hmembers
      (y :: bound) outer rest ((pos.after b.open).afterAll m.lead)
      (by simp only [ending, List.length_append, List.length_singleton]; omega)
    simp only [ending, List.length_append, List.append_assoc, List.singleton_append,
      List.length_singleton] at hleft hopening henter hskip
    refine ⟨left, by omega, ?_⟩
    simp only [List.append_assoc]
    rw [hopening]
    simp only
    rw [henter, hskip]
    simp only [Position.afterAll_cons, Position.afterAll_append]

end Member

open Member

mutual

theorem Spelling.isSkipped : ∀ t : Spelling, t.IsSkipped
  | .null =>
    isSkipped_of_plain (fun _ => rfl) fun rest pos _ => readWord_self _ rest (pos.after 'n')
  | .bool true =>
    isSkipped_of_plain (fun _ => rfl) fun rest pos _ => readWord_self _ rest (pos.after 't')
  | .bool false =>
    isSkipped_of_plain (fun _ => rfl) fun rest pos _ => readWord_self _ rest (pos.after 'f')
  | .number n => isSkipped_number n
  | .string q => isSkipped_of_plain (fun _ => rfl) fun rest pos _ => skipString_append q rest pos
  | .array items inner => by
    refine isSkipped_of_members .list (items.map ofItem) ?_ ?_ inner ?_
    · intro m hm
      obtain ⟨item, -, rfl⟩ := List.mem_map.mp hm
      exact enters_ofItem item
    · exact isSkipped_items items
    · rw [allChars_items]
      rfl
  | .object fields inner => by
    refine isSkipped_of_members .object (fields.map ofField) ?_ ?_ inner ?_
    · intro m hm
      obtain ⟨field, -, rfl⟩ := List.mem_map.mp hm
      exact enters_ofField field
    · exact isSkipped_fields fields
    · rw [allChars_fields]
      rfl

theorem Spelling.isSkipped_items : ∀ (items : List (Blanks × Spelling × Blanks)),
    ∀ m ∈ items.map ofItem, m.value.IsSkipped
  | [] => by simp
  | (before, t, behind) :: items => by
    rw [List.map_cons, List.forall_mem_cons]
    exact ⟨isSkipped t, isSkipped_items items⟩

theorem Spelling.isSkipped_fields : ∀ (fields : List (Lead × Spelling × Blanks)),
    ∀ m ∈ fields.map ofField, m.value.IsSkipped
  | [] => by simp
  | (lead, t, behind) :: fields => by
    rw [List.map_cons, List.forall_mem_cons]
    exact ⟨isSkipped t, isSkipped_fields fields⟩

end

/-- A spelled value, with blanks before it, is passed over, however deep its brackets nest and
whether or not it stands for a value. -/
theorem Spelling.skipValue_append (before : Blanks) (t : Spelling) {rest : List Char}
    (hrest : EndsNumber rest) (pos : Position) :
    skipValue ⟨before.chars ++ (t.chars ++ rest), pos⟩ =
      .ok ⟨rest, pos.afterAll (before.chars ++ t.chars)⟩ := by
  have hpos := t.length_chars_pos
  obtain ⟨x, bound, hbound⟩ := List.exists_cons_of_length_pos
    (l := before.chars ++ (t.chars ++ rest)) (by simp only [List.length_append]; omega)
  have hrounds : t.chars.length ≤ (x :: bound).length := by
    rw [← hbound]
    simp only [List.length_append]
    omega
  obtain ⟨left, -, hskip⟩ := t.isSkipped (x :: bound) [] rest (pos.afterAll before.chars) hrounds
    hrest
  have hstart : skipValue ⟨before.chars ++ (t.chars ++ rest), pos⟩ =
      skipValueFrom (x :: bound) [] ⟨before.chars ++ (t.chars ++ rest), pos⟩ := by
    rw [← hbound]
    rfl
  rw [hstart, skipValueFrom_blanks, hskip, skipRestFrom, Position.afterAll_append]

end Json

end LintDiscovery
