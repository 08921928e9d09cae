/-
Texts cut to one line.

On one line a space stands for each line break. A text with more characters than the limit is cut in
two: what is kept has as many characters as the limit says, and three dots stand for the rest. A
text is cut between characters, whatever number of bytes they take.

* `Stands`, `InLine` — what stands on one line for a character, and for a text;
* `Shown`, `shown_iff` — what is shown of a text, whole or cut, and that it is this;
* `InLine.self`, `Shown.again` — what is shown shows itself;
* `oneLine_shows` — what is shown of all texts.
-/
import LintDiscovery.Proofs.RecordLines

namespace LintDiscovery.Text

variable {limit : Nat} {c d : Char} {s s' t t' : String}

/-! ### Line breaks -/

/-- A character, and what stands for it on one line. -/
inductive Stands : Char → Char → Prop
  | lineFeed : Stands '\n' ' '
  | carriageReturn : Stands '\r' ' '
  | other {c : Char} (hfeed : c ≠ '\n') (hreturn : c ≠ '\r') : Stands c c

theorem stands_iff : Stands c d ↔ d = if isLineBreak c then ' ' else c := by
  constructor
  · rintro (_ | _ | ⟨hfeed, hreturn⟩)
    · rfl
    · rfl
    · simp [isLineBreak, hfeed, hreturn]
  · rintro rfl
    by_cases hfeed : c = '\n'
    · subst hfeed
      exact .lineFeed
    by_cases hreturn : c = '\r'
    · subst hreturn
      exact .carriageReturn
    · simpa [isLineBreak, hfeed, hreturn] using Stands.other hfeed hreturn

theorem Stands.self (h : Stands c d) : Stands d d := by
  cases h with
  | lineFeed => exact .other (by decide) (by decide)
  | carriageReturn => exact .other (by decide) (by decide)
  | other hfeed hreturn => exact .other hfeed hreturn

/-- A text, and what stands for it on one line: one character for each. -/
def InLine (s t : String) : Prop :=
  List.Forall₂ Stands s.toList t.toList

theorem forall₂_stands_iff {cs ds : List Char} :
    List.Forall₂ Stands cs ds ↔ ds = unbroken cs := by
  induction cs generalizing ds with
  | nil => simp [unbroken]
  | cons c cs ih =>
    cases ds with
    | nil => simp [unbroken]
    | cons d ds => simpa [unbroken, stands_iff] using fun _ => ih

theorem inLine_iff : InLine s t ↔ t.toList = unbroken s.toList :=
  forall₂_stands_iff

theorem InLine.length_eq (h : InLine s t) : t.length = s.length := by
  rw [← String.length_toList, ← String.length_toList]
  exact (List.Forall₂.length_eq h).symm

theorem forall₂_stands_self {cs ds : List Char} (h : List.Forall₂ Stands cs ds) :
    List.Forall₂ Stands ds ds := by
  induction h with
  | nil => exact .nil
  | cons hfirst _ ih => exact .cons hfirst.self ih

/-- What stands on one line stands for itself. -/
theorem InLine.self (h : InLine s t) : InLine t t :=
  forall₂_stands_self h

/-! ### What is shown -/

/-- A text, and what is shown of it under a limit: all of it when it has no more characters than the
limit says, and else that many characters, with three dots for the rest, of which there is some. -/
inductive Shown (limit : Nat) : String → String → Prop
  | whole {s t : String} (hlength : s.length ≤ limit) (hline : InLine s t) : Shown limit s t
  | cut {kept rest t : String} (hlength : kept.length = limit) (hrest : rest ≠ "")
      (hline : InLine kept t) : Shown limit (kept ++ rest) (t ++ "...")

/-- A text that is too long can be cut at the limit. -/
theorem exists_cut (hs : limit < s.length) :
    ∃ kept rest : String, s = kept ++ rest ∧ kept.length = limit ∧ rest ≠ "" ∧
      kept.toList = s.toList.take limit := by
  rw [← String.length_toList] at hs
  refine ⟨String.ofList (s.toList.take limit), String.ofList (s.toList.drop limit), ?_, ?_, ?_,
    String.toList_ofList⟩
  · rw [← String.ofList_append, List.take_append_drop, String.ofList_toList]
  · rw [String.length_ofList, List.length_take]
    omega
  · intro hnil
    have hdrop : (s.toList.drop limit).length = 0 := by
      rw [← String.length_ofList, hnil]
      rfl
    rw [List.length_drop] at hdrop
    omega

theorem Shown.eq_oneLine (h : Shown limit s t) : t = oneLine limit s := by
  rw [← String.toList_inj, oneLine, String.toList_ofList, clipped]
  cases h with
  | whole hlength hline =>
    have hshort : (unbroken s.toList).length ≤ limit := by
      rwa [unbroken, List.length_map, String.length_toList]
    rw [if_pos hshort, inLine_iff.mp hline]
  | @cut kept rest t hlength hrest hline =>
    have hlong : ¬ (unbroken (kept ++ rest).toList).length ≤ limit := by
      have hsome : rest.length ≠ 0 := fun hzero => hrest (String.length_eq_zero_iff.mp hzero)
      rw [unbroken, List.length_map, String.length_toList, String.length_append]
      omega
    have hkept : (unbroken (kept ++ rest).toList).take limit = t.toList := by
      rw [inLine_iff.mp hline, unbroken, unbroken, ← List.map_take, String.toList_append,
        List.take_left' (by rw [String.length_toList, hlength])]
    rw [if_neg hlong, hkept, String.toList_append]
    rfl

/-- The text on one line is what is shown. -/
theorem shown_iff : Shown limit s t ↔ t = oneLine limit s := by
  refine ⟨Shown.eq_oneLine, ?_⟩
  rintro rfl
  have hline : ∀ s, InLine s (String.ofList (unbroken s.toList)) := fun s =>
    inLine_iff.mpr String.toList_ofList
  by_cases hs : s.length ≤ limit
  · have h := Shown.whole hs (hline s)
    rwa [← h.eq_oneLine]
  · rw [Nat.not_le] at hs
    obtain ⟨kept, rest, rfl, hlength, hrest, -⟩ := exists_cut hs
    have h := Shown.cut hlength hrest (hline kept)
    rwa [← h.eq_oneLine]

/-- What is shown of a text is also what is shown of that: dots that are cut off give way to
dots. -/
theorem Shown.again (h : Shown limit s t) : Shown limit t t := by
  cases h with
  | whole hlength hline => exact .whole (hline.length_eq ▸ hlength) hline.self
  | cut hlength _ hline => exact .cut (hline.length_eq.trans hlength) (by decide) hline.self

theorem Shown.length_le (h : Shown limit s t) : t.length ≤ limit + 3 := by
  cases h with
  | whole hlength hline =>
    rw [hline.length_eq]
    omega
  | cut hlength _ hline =>
    rw [String.length_append, hline.length_eq, hlength]
    exact Nat.le_refl _

/-- Of texts that are cut, nothing is seen but what is kept. -/
theorem oneLine_congr (hs : limit < s.length) (hs' : limit < s'.length)
    (heq : s.toList.take limit = s'.toList.take limit) : oneLine limit s = oneLine limit s' := by
  obtain ⟨kept, rest, rfl, hlength, hrest, hkept⟩ := exists_cut hs
  obtain ⟨kept', rest', rfl, hlength', hrest', hkept'⟩ := exists_cut hs'
  obtain rfl : kept = kept' := by
    rw [← String.toList_inj, hkept, heq, hkept']
  have hline : InLine kept (String.ofList (unbroken kept.toList)) :=
    inLine_iff.mpr String.toList_ofList
  rw [← (Shown.cut hlength hrest hline).eq_oneLine, ← (Shown.cut hlength' hrest' hline).eq_oneLine]

/-- **What is shown of texts.** The text on one line is the one that is shown, and no other. It has
no line breaks and at most three characters more than the limit says, it does not change when it is
cut to one line again, and it depends on no character that was cut off. -/
theorem oneLine_shows (limit : Nat) (s : String) :
    (∀ t, Shown limit s t ↔ t = oneLine limit s) ∧
      (∀ c ∈ (oneLine limit s).toList, c ≠ '\n' ∧ c ≠ '\r') ∧
      (oneLine limit s).length ≤ limit + 3 ∧
      oneLine limit (oneLine limit s) = oneLine limit s ∧
      ∀ s', limit < s.length → limit < s'.length →
        s.toList.take limit = s'.toList.take limit → oneLine limit s = oneLine limit s' := by
  have hshown : Shown limit s (oneLine limit s) := shown_iff.mpr rfl
  refine ⟨fun t => shown_iff, fun c hc => ?_, hshown.length_le, hshown.again.eq_oneLine.symm,
    fun s' hs hs' heq => oneLine_congr hs hs' heq⟩
  have hbreak := isOneLine_oneLine limit s c hc
  simpa [isLineBreak] using hbreak

/-- A text of five characters that take eight bytes, cut behind the third. -/
example : oneLine 3 "é\r\n→x" = "é  ..." ∧ oneLine 5 "é\r\n→x" = "é  →x" := by decide

end LintDiscovery.Text
