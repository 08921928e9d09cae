/-
Paths by their components.

Joining works on the text of paths, taking the parent on their components. Both are described here
by what they do to the components.

* `piecesOf_append_slash`, `piecesOf_joinPieces` — pieces of texts put together;
* `components_join` — joining appends components;
* `exists_parent?_of_components` — the parent is what is left without the last component.
-/
import LintDiscovery.File.Path
import Mathlib.Data.List.DropRight

namespace LintDiscovery.Path

/-! ### Pieces -/

theorem piecesOf_ne_nil (cs : List Char) : piecesOf cs ≠ [] := by
  cases cs with
  | nil => simp [piecesOf]
  | cons c cs =>
    rw [piecesOf]
    split
    · simp
    · split <;> simp

theorem piecesOf_cons_of_ne {c : Char} (hc : c ≠ '/') {cs p : List Char} {ps : List (List Char)}
    (hp : piecesOf cs = p :: ps) : piecesOf (c :: cs) = (c :: p) :: ps := by
  rw [piecesOf, if_neg hc, hp]

/-- A slash ends a piece. -/
theorem piecesOf_append_slash (cs ds : List Char) :
    piecesOf (cs ++ '/' :: ds) = piecesOf cs ++ piecesOf ds := by
  induction cs with
  | nil => simp [piecesOf]
  | cons c cs ih =>
    by_cases hc : c = '/'
    · subst hc
      rw [List.cons_append, piecesOf, if_pos rfl, ih, piecesOf, if_pos rfl, List.cons_append]
    · obtain ⟨p, ps, hp⟩ := List.exists_cons_of_ne_nil (piecesOf_ne_nil cs)
      have happend : piecesOf (cs ++ '/' :: ds) = p :: (ps ++ piecesOf ds) := by
        rw [ih, hp, List.cons_append]
      rw [List.cons_append, piecesOf_cons_of_ne hc happend, piecesOf_cons_of_ne hc hp,
        List.cons_append]

theorem piecesOf_of_not_mem {cs : List Char} (hcs : '/' ∉ cs) : piecesOf cs = [cs] := by
  induction cs with
  | nil => rfl
  | cons c cs ih =>
    rw [List.mem_cons, not_or] at hcs
    rw [piecesOf_cons_of_ne (Ne.symm hcs.1) (ih hcs.2)]

theorem not_mem_of_mem_piecesOf {cs p : List Char} (hp : p ∈ piecesOf cs) : '/' ∉ p := by
  induction cs generalizing p with
  | nil =>
    rw [piecesOf, List.mem_singleton] at hp
    simp [hp]
  | cons c cs ih =>
    by_cases hc : c = '/'
    · rw [piecesOf, if_pos hc] at hp
      rcases List.mem_cons.mp hp with rfl | hp
      · simp
      · exact ih hp
    · obtain ⟨q, qs, hq⟩ := List.exists_cons_of_ne_nil (piecesOf_ne_nil cs)
      rw [piecesOf_cons_of_ne hc hq] at hp
      rcases List.mem_cons.mp hp with rfl | hp
      · have hmem : '/' ∉ q := ih (by simp [hq])
        simp [Ne.symm hc, hmem]
      · exact ih (by simp [hq, hp])

theorem joinPieces_cons_of_ne_nil (p : List Char) {ps : List (List Char)} (hps : ps ≠ []) :
    joinPieces (p :: ps) = p ++ '/' :: joinPieces ps := by
  obtain ⟨q, qs, rfl⟩ := List.exists_cons_of_ne_nil hps
  rfl

/-- Pieces put together come apart again. -/
theorem piecesOf_joinPieces {ps : List (List Char)} (hne : ps ≠ []) (hps : ∀ p ∈ ps, '/' ∉ p) :
    piecesOf (joinPieces ps) = ps := by
  induction ps with
  | nil => exact absurd rfl hne
  | cons p ps ih =>
    have hp : piecesOf p = [p] := piecesOf_of_not_mem (hps p (by simp))
    by_cases hnil : ps = []
    · subst hnil
      exact hp
    · rw [joinPieces_cons_of_ne_nil p hnil, piecesOf_append_slash, hp,
        ih hnil fun q hq => hps q (by simp [hq])]
      rfl

theorem joinPieces_piecesOf (cs : List Char) : joinPieces (piecesOf cs) = cs := by
  induction cs with
  | nil => rfl
  | cons c cs ih =>
    by_cases hc : c = '/'
    · rw [piecesOf, if_pos hc, joinPieces_cons_of_ne_nil [] (piecesOf_ne_nil cs), ih, hc]
      rfl
    · obtain ⟨p, ps, hp⟩ := List.exists_cons_of_ne_nil (piecesOf_ne_nil cs)
      rw [piecesOf_cons_of_ne hc hp]
      rw [hp] at ih
      by_cases hnil : ps = []
      · subst hnil
        exact congrArg (c :: ·) ih
      · rw [joinPieces_cons_of_ne_nil _ hnil] at ih ⊢
        rw [List.cons_append, ih]

theorem component?_eq_none_iff (p : List Char) : component? p = none ↔ isBlankPiece p = true := by
  unfold component?
  split
  · rename_i hblank
    simp [hblank]
  · rename_i hblank
    split <;> simp [hblank]

/-! ### Heads -/

theorem splitHead_of_ne {c : Char} {cs : List Char} (hslash : c ≠ '/') (hdot : c ≠ '.') :
    splitHead (c :: cs) = ([], c :: cs) := by
  unfold splitHead
  split
  · rename_i heq
    exact absurd (List.cons.inj heq).1 hslash
  · rename_i heq
    exact absurd (List.cons.inj heq).1 hdot
  · rename_i heq
    exact absurd (List.cons.inj heq).1 hdot
  · rfl

theorem splitHead_dot_cons {c : Char} (hc : c ≠ '/') (cs : List Char) :
    splitHead ('.' :: c :: cs) = ([], '.' :: c :: cs) := by
  unfold splitHead
  split
  · rename_i heq
    exact absurd (List.cons.inj heq).1 (by decide)
  · rename_i heq
    cases (List.cons.inj heq).2
  · rename_i heq
    exact absurd (List.cons.inj (List.cons.inj heq).2).1 hc
  · rfl

theorem splitHead_append (cs : List Char) : (splitHead cs).1 ++ (splitHead cs).2 = cs := by
  unfold splitHead
  split <;> rfl

/-- What follows behind a slash has no influence on the head of a text that is there. -/
theorem splitHead_append_slash {cs : List Char} (hcs : cs ≠ []) (ds : List Char) :
    splitHead (cs ++ '/' :: ds) = ((splitHead cs).1, (splitHead cs).2 ++ '/' :: ds) := by
  obtain ⟨c, cs, rfl⟩ := List.exists_cons_of_ne_nil hcs
  by_cases hslash : c = '/'
  · subst hslash
    rfl
  by_cases hdot : c = '.'
  · subst hdot
    cases cs with
    | nil => rfl
    | cons x xs =>
      by_cases hx : x = '/'
      · subst hx
        rfl
      · rw [List.cons_append, List.cons_append, splitHead_dot_cons hx, splitHead_dot_cons hx]
        rfl
  · rw [List.cons_append, splitHead_of_ne hslash hdot, splitHead_of_ne hslash hdot]
    rfl

/-! ### Joining -/

/-- The components that a text names. -/
def componentsOf (cs : List Char) : List Component :=
  headComponents (splitHead cs).1 ++ (piecesOf (splitHead cs).2).filterMap component?

theorem components_eq (p : Path) : p.components = componentsOf p.text.toList :=
  rfl

theorem componentsOf_append_slash {cs : List Char} (hcs : cs ≠ []) (ds : List Char) :
    componentsOf (cs ++ '/' :: ds) = componentsOf cs ++ (piecesOf ds).filterMap component? := by
  simp only [componentsOf, splitHead_append_slash hcs, piecesOf_append_slash, List.filterMap_append,
    List.append_assoc]

theorem toList_join {base p : Path} (hp : p.isAbsolute = false) :
    (base.join p).text.toList =
      if base.text.toList = [] ∨ base.text.toList.getLast? = some '/' then
        base.text.toList ++ p.text.toList
      else base.text.toList ++ '/' :: p.text.toList := by
  rw [join, if_neg (by simp [hp])]
  by_cases hend : base.text.toList = [] ∨ base.text.toList.getLast? = some '/'
  · rw [if_pos hend, if_pos (by simpa using hend), String.toList_append]
  · rw [if_neg hend, if_neg (by simpa using hend), String.toList_append, String.toList_append]
    simp

/-- **Joining appends components**, unless there is nothing to join to or the path stands alone. -/
theorem components_join {base p : Path} (hbase : base.text.toList ≠ [])
    (hp : p.isAbsolute = false) :
    (base.join p).components =
      base.components ++ (piecesOf p.text.toList).filterMap component? := by
  rw [components_eq, components_eq, toList_join hp]
  by_cases hend : base.text.toList.getLast? = some '/'
  · -- the slash is there already, and what stands before it may be empty
    rw [if_pos (.inr hend)]
    obtain ⟨cs, hcs⟩ := List.getLast?_eq_some_iff.mp hend
    rw [hcs, List.append_assoc, List.singleton_append]
    by_cases hnil : cs = []
    · subst hnil
      rfl
    · have hempty : (piecesOf []).filterMap component? = [] := rfl
      rw [componentsOf_append_slash hnil, componentsOf_append_slash hnil, hempty, List.append_nil]
  · rw [if_neg (by simp [hbase, hend]), componentsOf_append_slash hbase]

/-! ### Parents -/

theorem withoutBlankEnd_eq (ps : List (List Char)) :
    withoutBlankEnd ps = ps.rdropWhile isBlankPiece :=
  rfl

/-- What stands at the end of pieces without blank ones at their end. -/
theorem withoutBlankEnd_cases (ps : List (List Char)) :
    withoutBlankEnd ps = [] ∨
      ∃ init x, withoutBlankEnd ps = init ++ [x] ∧ isBlankPiece x = false := by
  by_cases hnil : withoutBlankEnd ps = []
  · exact .inl hnil
  · refine .inr ⟨_, _, (List.dropLast_append_getLast hnil).symm, ?_⟩
    exact Bool.eq_false_iff.mpr (List.rdropWhile_last_not isBlankPiece ps hnil)

theorem withoutBlankEnd_isPrefixOf (ps : List (List Char)) : withoutBlankEnd ps <+: ps := by
  rw [withoutBlankEnd_eq]
  exact List.rdropWhile_prefix isBlankPiece ps

/-- Blank pieces name nothing. -/
theorem filterMap_withoutBlankEnd (ps : List (List Char)) :
    (withoutBlankEnd ps).filterMap component? = ps.filterMap component? := by
  have hblank : (ps.rtakeWhile isBlankPiece).filterMap component? = [] := by
    refine List.filterMap_eq_nil_iff.mpr fun p hp => ?_
    exact (component?_eq_none_iff p).mpr (List.mem_rtakeWhile_imp hp)
  have hparts : ps = withoutBlankEnd ps ++ ps.rtakeWhile isBlankPiece := by
    rw [withoutBlankEnd_eq, List.rdropWhile_append_rtakeWhile]
  rw [hparts, List.filterMap_append, hblank, List.append_nil, ← hparts]

/-- Pieces that a head can stand before. -/
def Fits (head : List Char) (ps : List (List Char)) : Prop :=
  head = ['/'] ∨ (head = ['.'] ∧ ps.head? = some []) ∨
    (head = [] ∧ (ps = [[]] ∨ ∃ p, ps.head? = some p ∧ isBlankPiece p = false))

theorem fits_splitHead (cs : List Char) :
    Fits (splitHead cs).1 (piecesOf (splitHead cs).2) := by
  rcases cs with _ | ⟨c, cs⟩
  · exact .inr (.inr ⟨rfl, .inl rfl⟩)
  by_cases hslash : c = '/'
  · subst hslash
    exact .inl rfl
  by_cases hdot : c = '.'
  · subst hdot
    rcases cs with _ | ⟨x, xs⟩
    · exact .inr (.inl ⟨rfl, rfl⟩)
    by_cases hx : x = '/'
    · subst hx
      exact .inr (.inl ⟨rfl, rfl⟩)
    · obtain ⟨p, ps, hp⟩ := List.exists_cons_of_ne_nil (piecesOf_ne_nil xs)
      have hpieces : piecesOf ('.' :: x :: xs) = ('.' :: x :: p) :: ps :=
        piecesOf_cons_of_ne (by decide) (piecesOf_cons_of_ne hx hp)
      rw [splitHead_dot_cons hx]
      exact .inr (.inr ⟨rfl, .inr ⟨_, by rw [hpieces]; rfl, by simp [isBlankPiece]⟩⟩)
  · obtain ⟨p, ps, hp⟩ := List.exists_cons_of_ne_nil (piecesOf_ne_nil cs)
    rw [splitHead_of_ne hslash hdot]
    refine .inr (.inr ⟨rfl, .inr ⟨c :: p, ?_, by simp [isBlankPiece, hdot]⟩⟩)
    rw [piecesOf_cons_of_ne hslash hp]
    rfl

theorem splitHead_append_of_piece {p : List Char} (hslash : '/' ∉ p)
    (hblank : isBlankPiece p = false) (tail : List Char) :
    splitHead (p ++ tail) = ([], p ++ tail) := by
  rcases p with _ | ⟨c, cs⟩
  · simp [isBlankPiece] at hblank
  rw [List.mem_cons, not_or] at hslash
  by_cases hdot : c = '.'
  · subst hdot
    rcases cs with _ | ⟨x, xs⟩
    · simp [isBlankPiece] at hblank
    rw [List.mem_cons, not_or] at hslash
    exact splitHead_dot_cons (Ne.symm hslash.2.1) (xs ++ tail)
  · exact splitHead_of_ne (Ne.symm hslash.1) hdot

theorem joinPieces_cons (p : List Char) (ps : List (List Char)) :
    ∃ tail, joinPieces (p :: ps) = p ++ tail ∧ (ps ≠ [] → ∃ rest, tail = '/' :: rest) := by
  by_cases hnil : ps = []
  · subst hnil
    exact ⟨[], (List.append_nil p).symm, fun h => absurd rfl h⟩
  · exact ⟨_, joinPieces_cons_of_ne_nil p hnil, fun _ => ⟨_, rfl⟩⟩

/-- A head comes off again when the pieces behind it begin as they did, and their last one is not
blank. -/
theorem splitHead_append_joinPieces {head : List Char} {ps qs : List (List Char)}
    (hfits : Fits head ps) (hfirst : qs <+: ps) (hslash : ∀ q ∈ qs, '/' ∉ q)
    (hlast : qs = [] ∨ ∃ init x, qs = init ++ [x] ∧ isBlankPiece x = false) :
    splitHead (head ++ joinPieces qs) = (head, joinPieces qs) := by
  rcases qs with _ | ⟨q, qs⟩
  · rcases hfits with rfl | ⟨rfl, -⟩ | ⟨rfl, -⟩ <;> rfl
  obtain ⟨rest, hps⟩ := hfirst
  have hhead : ps.head? = some q := by rw [← hps]; rfl
  have hsingle : qs = [] → isBlankPiece q = false := by
    rintro rfl
    obtain ⟨init, x, hx, hblank⟩ := hlast.resolve_left (by simp)
    rcases init with _ | ⟨y, ys⟩
    · rw [(List.cons.inj hx).1]
      exact hblank
    · simp at hx
  rcases hfits with rfl | ⟨rfl, hdot⟩ | ⟨rfl, hplain⟩
  · rfl
  · -- an empty piece is not the last one, so a slash follows the dot
    have hq : q = [] := by
      rw [hhead] at hdot
      exact Option.some.inj hdot
    subst hq
    have hne : qs ≠ [] := fun h => by simpa [isBlankPiece] using hsingle h
    rw [joinPieces_cons_of_ne_nil [] hne]
    rfl
  · have hblank : isBlankPiece q = false := by
      rcases hplain with hempty | ⟨p, hp, hblank⟩
      · rw [hempty, List.cons_append] at hps
        exact hsingle (List.append_eq_nil_iff.mp (List.cons.inj hps).2).1
      · rw [hhead] at hp
        rw [Option.some.inj hp]
        exact hblank
    obtain ⟨tail, hjoin, -⟩ := joinPieces_cons q qs
    rw [hjoin]
    exact splitHead_append_of_piece (hslash q (by simp)) hblank tail

/-- Pieces name the same when they are put together and come apart again. -/
theorem filterMap_piecesOf_joinPieces {ps : List (List Char)} (hps : ∀ p ∈ ps, '/' ∉ p) :
    (piecesOf (joinPieces ps)).filterMap component? = ps.filterMap component? := by
  by_cases hnil : ps = []
  · subst hnil
    rfl
  · rw [piecesOf_joinPieces hnil hps]

/-- What the parent is, from the head and the pieces of the text. -/
theorem parent?_cases (p : Path) :
    (p.parent? = none ∧ (p.components = [] ∨ p.components = [.root])) ∨
      ∃ q c, p.parent? = some q ∧ p.components = q.components ++ [c] := by
  rw [components_eq, componentsOf, ← filterMap_withoutBlankEnd]
  have hfits := fits_splitHead p.text.toList
  have hslash := fun x (hx : x ∈ piecesOf (splitHead p.text.toList).2) => not_mem_of_mem_piecesOf hx
  unfold parent?
  generalize splitHead p.text.toList = parts at *
  obtain ⟨head, body⟩ := parts
  simp only at hfits hslash ⊢
  rcases withoutBlankEnd_cases (piecesOf body) with hnil | ⟨init, x, hpieces, hx⟩
  · simp only [hnil, List.filterMap_nil, List.append_nil]
    rcases hfits with rfl | ⟨rfl, -⟩ | ⟨rfl, -⟩
    · exact .inl ⟨rfl, .inr rfl⟩
    · exact .inr ⟨⟨""⟩, .here, rfl, rfl⟩
    · exact .inl ⟨rfl, .inl rfl⟩
  · right
    have hinit : withoutBlankEnd init <+: piecesOf body := by
      refine (withoutBlankEnd_isPrefixOf init).trans (List.IsPrefix.trans ?_ (withoutBlankEnd_isPrefixOf _))
      rw [hpieces]
      exact List.prefix_append init [x]
    have hslash' : ∀ y ∈ withoutBlankEnd init, '/' ∉ y := fun y hy => hslash y (hinit.subset hy)
    obtain ⟨c, hc⟩ : ∃ c, component? x = some c := by
      refine Option.ne_none_iff_exists'.mp fun hnone => ?_
      rw [(component?_eq_none_iff x).mp hnone] at hx
      cases hx
    refine ⟨⟨String.ofList (head ++ joinPieces (withoutBlankEnd init))⟩, c, ?_, ?_⟩
    · rw [hpieces]
      split
      · rename_i hempty
        simp at hempty
      · rw [List.dropLast_concat]
    · rw [components_eq, String.toList_ofList, componentsOf,
        splitHead_append_joinPieces hfits hinit hslash' (withoutBlankEnd_cases init),
        filterMap_piecesOf_joinPieces hslash', filterMap_withoutBlankEnd init, hpieces,
        List.filterMap_append, List.append_assoc]
      simp [hc]

/-- **The parent has all components but the last**, where that is not the root. -/
theorem exists_parent?_of_components {p : Path} {front : List Component} {c : Component}
    (hp : p.components = front ++ [c]) (hc : c ≠ .root) :
    ∃ q, p.parent? = some q ∧ q.components = front := by
  rcases parent?_cases p with ⟨-, hnone | hroot⟩ | ⟨q, d, hq, hd⟩
  · rw [hnone] at hp
    simp at hp
  · rw [hroot] at hp
    have hmem : c ∈ [Component.root] := by simp [hp]
    exact absurd (List.mem_singleton.mp hmem) hc
  · rw [hd] at hp
    exact ⟨q, hq, (List.append_inj' hp rfl).1⟩

end LintDiscovery.Path
