/-
Templates are filled all at once.

A slot is looked at where it stands in the template, without regard to what else stands there: an
open brace, ASCII digits and a closing brace. Slots never overlap, since none of them has an open
brace behind its first character. So each can be filled on its own, and a scan from the left that
begins anew at every open brace comes upon all of them.

* `written_pieces` — the pieces of a text put together are the text;
* `pieces_append_slot` — a slot is one of the pieces, whatever stands around it;
* `SlotAt.disjoint` — slots do not overlap;
* `Becomes` — what a character becomes, by its place in the text;
* `exists_becomes_pieces` — pieces become what their characters become;
* `render_becomes` — rendering a template puts together what its characters become.
-/
import LintDiscovery.Diagnostic.Template
import Mathlib.Data.List.Forall2

namespace LintDiscovery.Template

/-! ### Pieces -/

/-- A piece as it is written. -/
def Piece.written : Piece → List Char
  | .char c => [c]
  | .slot digits => Template.written digits

/-- The characters that have been read of what may become a slot. -/
def openedChars : Option (List Char) → List Char
  | none => []
  | some digits => '\x7b' :: digits.reverse

/-- Digits that are enough for a slot: at least one, and ASCII digits all of them. -/
def IsNumeral (digits : List Char) : Prop :=
  digits ≠ [] ∧ ∀ d ∈ digits, d.isDigit = true

theorem length_written (digits : List Char) : (written digits).length = digits.length + 2 := by
  simp [written]

theorem flatMap_written_unclosed (digits : List Char) :
    (unclosed digits).flatMap Piece.written = '\x7b' :: digits := by
  simp [unclosed, Piece.written, List.flatMap_map]

theorem flatMap_written_piecesFrom (opened : Option (List Char)) (cs : List Char) :
    (piecesFrom opened cs).flatMap Piece.written = openedChars opened ++ cs := by
  fun_induction piecesFrom opened cs with
  | case1 => rfl
  | case2 digits => simp [flatMap_written_unclosed, openedChars]
  | case3 cs ih => simp [ih, openedChars]
  | case4 c cs hc ih => simp [ih, openedChars, Piece.written]
  | case5 digits c cs hc ih => simp [ih, openedChars]
  | case6 digits c cs hc hclose ih =>
    simp [ih, openedChars, Piece.written, Template.written, hclose.1]
  | case7 digits cs hc hclose ih => simp [flatMap_written_unclosed, ih, openedChars]
  | case8 digits c cs hc hclose hopen ih =>
    simp [flatMap_written_unclosed, ih, openedChars, Piece.written]

/-- The pieces of a text put together are the text. -/
theorem written_pieces (cs : List Char) : (piecesFrom none cs).flatMap Piece.written = cs :=
  flatMap_written_piecesFrom none cs

theorem not_slot_mem_unclosed (digits ds : List Char) : Piece.slot ds ∉ unclosed digits := by
  simp [unclosed]

theorem isNumeral_of_mem_piecesFrom {opened : Option (List Char)} {cs ds : List Char}
    (hopened : ∀ digits, opened = some digits → ∀ d ∈ digits, d.isDigit = true)
    (hds : .slot ds ∈ piecesFrom opened cs) : IsNumeral ds := by
  fun_induction piecesFrom opened cs with
  | case1 => cases hds
  | case2 digits => exact absurd hds (not_slot_mem_unclosed _ _)
  | case3 cs ih => exact ih (by simp) hds
  | case4 c cs hc ih => exact ih (by simp) (by simpa using hds)
  | case5 digits c cs hc ih =>
    refine ih ?_ hds
    rintro _ ⟨⟩ d hd
    rcases List.mem_cons.mp hd with rfl | hd
    · exact hc
    · exact hopened digits rfl d hd
  | case6 digits c cs hc hclose ih =>
    rcases List.mem_cons.mp hds with hds | hds
    · obtain rfl := Piece.slot.inj hds
      refine ⟨by simpa using hclose.2, fun d hd => ?_⟩
      exact hopened digits rfl d (List.mem_reverse.mp hd)
    · exact ih (by simp) hds
  | case7 digits cs hc hclose ih =>
    rcases List.mem_append.mp hds with hds | hds
    · exact absurd hds (not_slot_mem_unclosed _ _)
    · exact ih (by simp) hds
  | case8 digits c cs hc hclose hopen ih =>
    rcases List.mem_append.mp hds with hds | hds
    · exact absurd hds (not_slot_mem_unclosed _ _)
    · exact ih (by simp) (by simpa using hds)

/-- An open brace begins anew, whatever was read before it. -/
theorem piecesFrom_append_brace (opened : Option (List Char)) (cs rest : List Char) :
    piecesFrom opened (cs ++ '\x7b' :: rest) =
      piecesFrom opened cs ++ piecesFrom (some []) rest := by
  have hdigit : '\x7b'.isDigit = false := by decide
  fun_induction piecesFrom opened cs with
  | case1 => simp [piecesFrom]
  | case2 digits => simp [piecesFrom, hdigit]
  | case3 cs ih => simp [piecesFrom, ih]
  | case4 c cs hc ih => simp [piecesFrom, hc, ih]
  | case5 digits c cs hc ih => simp [piecesFrom, hc, ih]
  | case6 digits c cs hc hclose ih => simp [piecesFrom, hclose, ih]
  | case7 digits cs hc hclose ih => simp [piecesFrom, hdigit, ih]
  | case8 digits c cs hc hclose hopen ih => simp [piecesFrom, hc, hclose, hopen, ih]

/-- Digits behind an open brace make a slot when a closing brace comes behind them. -/
theorem piecesFrom_digits {digits ds : List Char} (hds : ∀ d ∈ ds, d.isDigit = true)
    (hne : digits.reverse ++ ds ≠ []) (rest : List Char) :
    piecesFrom (some digits) (ds ++ '\x7d' :: rest) =
      .slot (digits.reverse ++ ds) :: piecesFrom none rest := by
  induction ds generalizing digits with
  | nil =>
    have hdigit : '\x7d'.isDigit = false := by decide
    have hdigits : digits ≠ [] := by simpa using hne
    simp [piecesFrom, hdigit, hdigits]
  | cons d ds ih =>
    have hd : d.isDigit = true := hds d (by simp)
    rw [List.cons_append, piecesFrom, if_pos hd, ih (fun x hx => hds x (by simp [hx])) (by simp)]
    simp

/-- **A slot is one of the pieces**, whatever stands before it and behind it. -/
theorem pieces_append_slot {digits : List Char} (hdigits : IsNumeral digits)
    (before after : List Char) :
    piecesFrom none (before ++ written digits ++ after) =
      piecesFrom none before ++ .slot digits :: piecesFrom none after := by
  have hslot : before ++ written digits ++ after =
      before ++ '\x7b' :: (digits ++ '\x7d' :: after) := by
    simp [written]
  rw [hslot, piecesFrom_append_brace, piecesFrom_digits hdigits.2 (by simpa using hdigits.1)]
  rfl

/-! ### Slots by their places -/

/-- A slot with these digits stands in a text at an index. -/
structure SlotAt (text : List Char) (start : Nat) (digits : List Char) : Prop where
  isNumeral : IsNumeral digits
  stands : written digits <+: text.drop start

namespace SlotAt

variable {text : List Char} {start : Nat} {digits : List Char}

theorem iff_exists :
    SlotAt text start digits ↔ IsNumeral digits ∧
      ∃ before after, text = before ++ written digits ++ after ∧ before.length = start := by
  constructor
  · rintro ⟨hdigits, after, hafter⟩
    refine ⟨hdigits, text.take start, after, ?_, ?_⟩
    · rw [List.append_assoc, hafter, List.take_append_drop]
    · have hpos : 0 < (text.drop start).length := by
        rw [← hafter, List.length_append, length_written]
        omega
      rw [List.length_drop] at hpos
      rw [List.length_take]
      omega
  · rintro ⟨hdigits, before, after, rfl, rfl⟩
    refine ⟨hdigits, after, ?_⟩
    rw [List.append_assoc, List.drop_left]

theorem getElem? (h : SlotAt text start digits) {k : Nat} (hk : k < digits.length + 2) :
    text[start + k]? = (written digits)[k]? := by
  obtain ⟨after, hafter⟩ := h.stands
  have hk' : k < (written digits).length := by rwa [length_written]
  rw [← List.getElem?_drop, ← hafter, List.getElem?_append_left hk']

/-- There is no open brace in a slot but the first character. -/
theorem eq_zero_of_brace (h : SlotAt text start digits) {k : Nat} (hk : k < digits.length + 2)
    (hbrace : text[start + k]? = some '\x7b') : k = 0 := by
  rw [h.getElem? hk] at hbrace
  rcases k with _ | k
  · rfl
  · have hmem : '\x7b' ∈ digits ++ ['\x7d'] :=
      List.mem_of_getElem? (i := k) (by simpa [written] using hbrace)
    have hdigit : '\x7b' ∈ digits := by simpa using hmem
    exact absurd (h.isNumeral.2 _ hdigit) (by decide)

/-- A slot does not end before its last digit. -/
theorem length_le (h : SlotAt text start digits) {ds : List Char} (hds : SlotAt text start ds) :
    digits.length ≤ ds.length := by
  by_contra hlt
  -- the closing brace of the one is among the digits of the other
  have hclose : text[start + (ds.length + 1)]? = some '\x7d' := by
    rw [hds.getElem? (by omega)]
    simp [written]
  rw [h.getElem? (by omega)] at hclose
  have hmem : '\x7d' ∈ digits := by
    have hget : digits[ds.length]? = some '\x7d' := by
      rw [written, List.cons_append, List.getElem?_cons_succ,
        List.getElem?_append_left (by omega)] at hclose
      exact hclose
    exact List.mem_of_getElem? hget
  exact absurd (h.isNumeral.2 _ hmem) (by decide)

theorem unique (h : SlotAt text start digits) {ds : List Char} (hds : SlotAt text start ds) :
    ds = digits := by
  have hlength : ds.length = digits.length := Nat.le_antisymm (hds.length_le h) (h.length_le hds)
  obtain ⟨after, hafter⟩ := h.stands
  obtain ⟨after', hafter'⟩ := hds.stands
  have heq : written ds = written digits := by
    refine (List.append_inj (hafter'.trans hafter.symm) ?_).1
    rw [length_written, length_written, hlength]
  simpa [written] using heq

/-- **Slots do not overlap**: two slots are the same, or one ends before the other starts. -/
theorem disjoint (h : SlotAt text start digits) {start' : Nat} {ds : List Char}
    (hds : SlotAt text start' ds) :
    (start' = start ∧ ds = digits) ∨ start + (digits.length + 2) ≤ start' ∨
      start' + (ds.length + 2) ≤ start := by
  have hopen : ∀ {i ds}, SlotAt text i ds → text[i]? = some '\x7b' := by
    intro i ds hi
    have := hi.getElem? (k := 0) (by omega)
    simpa [written] using this
  by_cases hle : start ≤ start'
  · by_cases hlt : start' < start + (digits.length + 2)
    · have hzero := h.eq_zero_of_brace (k := start' - start) (by omega)
        (by rw [Nat.add_sub_cancel' hle]; exact hopen hds)
      obtain rfl : start' = start := by omega
      exact .inl ⟨rfl, h.unique hds⟩
    · exact .inr (.inl (by omega))
  · by_cases hlt : start < start' + (ds.length + 2)
    · have hzero := hds.eq_zero_of_brace (k := start - start') (by omega)
        (by rw [Nat.add_sub_cancel' (by omega)]; exact hopen h)
      omega
    · exact .inr (.inr (by omega))

end SlotAt

/-! ### Filling by places -/

/-- A slot that is filled: there is an argument whose index its digits denote in decimal. -/
structure FilledAt (args : List String) (text : List Char) (start : Nat) (digits : List Char)
    (arg : String) : Prop where
  slot : SlotAt text start digits
  argument : args[Nat.ofDigitChars 10 digits 0]? = some arg

/-- What the character at an index of a text becomes: the whole argument where a slot that is filled
starts, nothing in the rest of this slot, and itself everywhere else. -/
inductive Becomes (args : List String) (text : List Char) (i : Nat) : List Char → Prop
  | filled {digits : List Char} {arg : String} (h : FilledAt args text i digits arg) :
      Becomes args text i arg.toList
  | within {start : Nat} {digits : List Char} {arg : String}
      (h : FilledAt args text start digits arg) (hstart : start < i)
      (hend : i < start + (digits.length + 2)) : Becomes args text i []
  | kept {c : Char} (hc : text[i]? = some c)
      (h : ∀ start digits arg, FilledAt args text start digits arg →
        i < start ∨ start + (digits.length + 2) ≤ i) : Becomes args text i [c]

section Becomes

variable {args : List String} {text : List Char} {i : Nat} {cs ds : List Char}

theorem FilledAt.unique {start : Nat} {digits ds : List Char} {arg other : String}
    (h : FilledAt args text start digits arg) (hother : FilledAt args text start ds other) :
    other = arg := by
  obtain rfl := h.slot.unique hother.slot
  exact Option.some.inj (hother.argument.symm.trans h.argument)

theorem Becomes.unique (h : Becomes args text i cs) (hds : Becomes args text i ds) : ds = cs := by
  -- no two rules apply to one place, since the slots that they speak of would overlap
  cases h with
  | filled h =>
    cases hds with
    | filled hother => rw [h.unique hother]
    | within hother hstart hend =>
      have := h.slot.disjoint hother.slot
      omega
    | kept _ hkept =>
      have := hkept _ _ _ h
      omega
  | within h hstart hend =>
    cases hds with
    | filled hother =>
      have := h.slot.disjoint hother.slot
      omega
    | within => rfl
    | kept _ hkept =>
      have := hkept _ _ _ h
      omega
  | kept hc hkept =>
    cases hds with
    | filled hother =>
      have := hkept _ _ _ hother
      omega
    | within hother hstart hend =>
      have := hkept _ _ _ hother
      omega
    | kept hd _ => rw [Option.some.inj (hc.symm.trans hd)]

/-- A slot whose number is not that of an argument stays as it is written. -/
theorem SlotAt.becomes_written {start : Nat} {digits : List Char} (h : SlotAt text start digits)
    (hargs : args.length ≤ Nat.ofDigitChars 10 digits 0) {k : Nat} {c : Char}
    (hc : (written digits)[k]? = some c) : Becomes args text (start + k) [c] := by
  have hk : k < digits.length + 2 := by
    rw [← length_written]
    exact (List.getElem?_eq_some_iff.mp hc).1
  refine .kept (by rw [h.getElem? hk, hc]) fun start' ds arg hfilled => ?_
  rcases h.disjoint hfilled.slot with ⟨rfl, rfl⟩ | hbefore | hbehind
  · have hnone := List.getElem?_eq_none hargs
    rw [hfilled.argument] at hnone
    cases hnone
  · omega
  · omega

end Becomes

/-! ### Rendering -/

/-- What stands alone among the pieces is not in a slot. -/
theorem becomes_char {args : List String} {text : List Char} {ps qs : List Piece} {c : Char}
    (hpieces : piecesFrom none text = ps ++ .char c :: qs) :
    Becomes args text (ps.flatMap Piece.written).length [c] := by
  have htext : text = ps.flatMap Piece.written ++ c :: qs.flatMap Piece.written := by
    have := written_pieces text
    rw [hpieces, List.flatMap_append, List.flatMap_cons] at this
    exact this.symm
  refine .kept (by rw [htext]; simp) fun start digits arg hfilled => ?_
  obtain ⟨hdigits, before, after, heq, rfl⟩ := SlotAt.iff_exists.mp hfilled.slot
  -- the slot is a piece as well, and stands before the character or behind it
  have hslot : piecesFrom none before ++ .slot digits :: piecesFrom none after =
      ps ++ .char c :: qs := by
    rw [← hpieces, heq, pieces_append_slot hdigits]
  have hbefore := written_pieces before
  rcases List.append_eq_append_iff.mp hslot with ⟨ms, hps, hrest⟩ | ⟨ms, hfirst, hrest⟩
  · rcases ms with _ | ⟨m, ms⟩
    · cases hrest
    · obtain ⟨rfl, -⟩ := List.cons.inj hrest
      right
      rw [hps, List.flatMap_append, hbefore, List.flatMap_cons, List.length_append,
        List.length_append, Piece.written, length_written]
      omega
  · rcases ms with _ | ⟨m, ms⟩
    · cases hrest
    · obtain ⟨rfl, -⟩ := List.cons.inj hrest
      left
      rw [← hbefore, hfirst, List.flatMap_append, List.flatMap_cons, List.length_append,
        List.length_append, Piece.written, List.length_singleton]
      omega

/-- What is a slot among the pieces is a slot in its place. -/
theorem slotAt_slot {text : List Char} {ps qs : List Piece} {digits : List Char}
    (hpieces : piecesFrom none text = ps ++ .slot digits :: qs) :
    SlotAt text (ps.flatMap Piece.written).length digits := by
  have hmem : .slot digits ∈ piecesFrom none text := by simp [hpieces]
  have hdigits : IsNumeral digits := isNumeral_of_mem_piecesFrom (by simp) hmem
  refine SlotAt.iff_exists.mpr ⟨hdigits, _, qs.flatMap Piece.written, ?_, rfl⟩
  have := written_pieces text
  rw [hpieces, List.flatMap_append, List.flatMap_cons] at this
  rw [← this, List.append_assoc]
  rfl

theorem forall₂_range' {α : Type} {R : Nat → α → Prop} {start n : Nat} {xs : List α}
    (hlength : xs.length = n) (hxs : ∀ k x, xs[k]? = some x → R (start + k) x) :
    List.Forall₂ R (List.range' start n) xs := by
  induction xs generalizing start n with
  | nil =>
    subst hlength
    exact .nil
  | cons x xs ih =>
    subst hlength
    refine .cons (hxs 0 x rfl) (ih rfl fun k y hy => ?_)
    have := hxs (k + 1) y (by simpa using hy)
    rwa [Nat.add_assoc, Nat.add_comm 1 k]

/-- A piece becomes what its characters become. -/
theorem exists_becomes_piece {text : List Char} {ps qs : List Piece} {p : Piece}
    (hpieces : piecesFrom none text = ps ++ p :: qs) (args : List String) :
    ∃ shown, List.Forall₂ (Becomes args text)
        (List.range' (ps.flatMap Piece.written).length p.written.length) shown ∧
      p.text args = shown.flatten := by
  cases p with
  | char c => exact ⟨[[c]], .cons (becomes_char hpieces) .nil, rfl⟩
  | slot digits =>
    have hslot := slotAt_slot hpieces
    rcases harg : args[number digits]? with _ | arg
    · have hargs : args.length ≤ Nat.ofDigitChars 10 digits 0 :=
        List.getElem?_eq_none_iff.mp harg
      refine ⟨(written digits).map fun c => [c],
        forall₂_range' (List.length_map _) fun k x hx => ?_, ?_⟩
      · rw [List.getElem?_map] at hx
        obtain ⟨c, hc, rfl⟩ := Option.map_eq_some_iff.mp hx
        exact hslot.becomes_written hargs hc
      · rw [← List.flatMap_def, List.flatMap_singleton', Piece.text, harg]
    · have hfilled : FilledAt args text (ps.flatMap Piece.written).length digits arg :=
        ⟨hslot, harg⟩
      refine ⟨arg.toList :: List.replicate (digits.length + 1) [],
        forall₂_range' (by simp [Piece.written, length_written]) fun k x hx => ?_, ?_⟩
      · rcases k with _ | k
        · obtain rfl := Option.some.inj hx
          exact .filled hfilled
        · rw [List.getElem?_cons_succ, List.getElem?_replicate] at hx
          split at hx
          · obtain rfl := Option.some.inj hx
            exact .within hfilled (by omega) (by omega)
          · cases hx
      · simp [Piece.text, harg]

/-- The pieces from a place on become what the characters from there on become. -/
theorem exists_becomes_pieces {text : List Char} {ps qs : List Piece}
    (hpieces : piecesFrom none text = ps ++ qs) (args : List String) :
    ∃ shown, List.Forall₂ (Becomes args text)
        (List.range' (ps.flatMap Piece.written).length (qs.flatMap Piece.written).length) shown ∧
      qs.flatMap (Piece.text args) = shown.flatten := by
  induction qs generalizing ps with
  | nil => exact ⟨[], .nil, rfl⟩
  | cons p qs ih =>
    obtain ⟨first, hfirst, htext⟩ := exists_becomes_piece hpieces args
    have hpieces' : piecesFrom none text = (ps ++ [p]) ++ qs := by simpa using hpieces
    obtain ⟨rest, hrest, htexts⟩ := ih hpieces'
    refine ⟨first ++ rest, ?_, by rw [List.flatMap_cons, htext, htexts, List.flatten_append]⟩
    rw [List.flatMap_append, List.flatMap_singleton, List.length_append] at hrest
    rw [List.flatMap_cons, List.length_append, ← List.range'_append_1]
    exact List.rel_append hfirst hrest

/-- A template around a slot that is filled is rendered apart from it. -/
theorem render_append_slot {digits : List Char} (hdigits : IsNumeral digits) {args : List String}
    {arg : String} (harg : args[Nat.ofDigitChars 10 digits 0]? = some arg)
    (before after : String) :
    render (before ++ String.ofList (written digits) ++ after) args =
      render before args ++ arg ++ render after args := by
  have harg' : args[number digits]? = some arg := harg
  have htext : (before ++ String.ofList (written digits) ++ after).toList =
      before.toList ++ written digits ++ after.toList := by
    rw [String.toList_append, String.toList_append, String.toList_ofList]
  rw [render, pieces, htext, pieces_append_slot hdigits]
  simp [render, pieces, Piece.text, harg', String.append_assoc]

/-- **Slots are filled all at once.** Rendering a template puts together what its characters become,
each by itself: slots with the number of an argument become the argument, untouched by what stands
around it and not looked at again, and every other character stays. Slots do not overlap, so nothing
else is possible, and those that have no argument stay as they are written. -/
theorem render_becomes (template : String) (args : List String) :
    (∃ shown, List.Forall₂ (Becomes args template.toList)
        (List.range template.toList.length) shown ∧
      (render template args).toList = shown.flatten ∧
      ∀ other, List.Forall₂ (Becomes args template.toList)
        (List.range template.toList.length) other → other = shown) ∧
    (∀ start digits start' ds, SlotAt template.toList start digits →
      SlotAt template.toList start' ds → (start' = start ∧ ds = digits) ∨
        start + (digits.length + 2) ≤ start' ∨ start' + (ds.length + 2) ≤ start) ∧
    (∀ start digits, SlotAt template.toList start digits →
      args.length ≤ Nat.ofDigitChars 10 digits 0 → ∀ k c, (written digits)[k]? = some c →
        Becomes args template.toList (start + k) [c]) ∧
    ∀ before digits after arg,
      template = before ++ String.ofList (written digits) ++ after → IsNumeral digits →
        args[Nat.ofDigitChars 10 digits 0]? = some arg →
          render template args = render before args ++ arg ++ render after args := by
  refine ⟨?_, fun _ _ _ _ h hds => h.disjoint hds, fun _ _ h hargs _ _ hc =>
    h.becomes_written hargs hc, ?_⟩
  · have hpieces : piecesFrom none template.toList = [] ++ piecesFrom none template.toList := rfl
    obtain ⟨shown, hshown, htext⟩ := exists_becomes_pieces hpieces args
    rw [written_pieces, List.flatMap_nil, List.length_nil, ← List.range_eq_range'] at hshown
    refine ⟨shown, hshown, by rw [← htext, render, String.toList_ofList, pieces], ?_⟩
    have hunique : Relator.RightUnique (Becomes args template.toList) :=
      fun i cs ds h hds => hds.unique h
    exact fun other hother => hunique.forall₂ hother hshown
  · rintro before digits after arg rfl hdigits harg
    exact render_append_slot hdigits harg before after

example :
    render "\x7b\x7b0\x7d\x7d \x7b1\x7b0\x7d \x7b01\x7d \x7b2\x7d" ["\x7b1\x7d", "x"] =
      "\x7b\x7b1\x7d\x7d \x7b1\x7b1\x7d x \x7b2\x7d" := by
  decide

end LintDiscovery.Template
