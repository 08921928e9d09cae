/-
How far the name of an extension can lead a search.

A search for a library is to stay in its directories whatever the name is: names with a slash are
refused, and so are single and double dots, so that all candidates are files right in a directory. It
does so for all names but those that slip through the look at their components: a plain name with a
slash behind it, and behind that nothing that names anything.

* `Stays` — a search that does not leave its directories through the name;
* `isValidName_and_slash_iff` — the names with a slash that are taken for valid;
* `stays_iff` — a search stays in its directories exactly for the other names;
* `not_stays_trailingSlash` — a slash at the end is enough.
-/
import LintDiscovery.Library.Search
import LintDiscovery.Proofs.PathComponents

namespace LintDiscovery

/-! ### Texts without blanks at their ends -/

namespace Text

theorem dropWhile_isBlank_eq_self {cs : List Char}
    (hcs : ∀ c, cs.head? = some c → isBlank c = false) :
    cs.dropWhile isBlank = cs := by
  cases cs with
  | nil => rfl
  | cons c cs => rw [List.dropWhile_cons, hcs c rfl]; rfl

/-- Trimming leaves a text alone when it neither starts nor ends with a blank. -/
theorem trimChars_eq_self {cs : List Char} (hhead : ∀ c, cs.head? = some c → isBlank c = false)
    (hlast : ∀ c, cs.getLast? = some c → isBlank c = false) : trimChars cs = cs := by
  have hreverse : cs.reverse.dropWhile isBlank = cs.reverse :=
    dropWhile_isBlank_eq_self fun c hc => hlast c (by rw [← List.head?_reverse]; exact hc)
  rw [trimChars, dropWhile_isBlank_eq_self hhead, hreverse, List.reverse_reverse]

/-- A text that trimming leaves alone does not start with a blank. -/
theorem head_of_trimChars_eq_self {cs : List Char} (hcs : trimChars cs = cs) {c : Char}
    (hc : cs.head? = some c) : isBlank c = false := by
  cases cs with
  | nil => cases hc
  | cons x xs =>
    obtain rfl : x = c := Option.some.inj hc
    by_contra hblank
    have hx : isBlank x = true := by simpa using hblank
    -- without its first character the text is too short
    have hlength : (trimChars (x :: xs)).length ≤ xs.length := by
      rw [trimChars, List.dropWhile_cons, if_pos hx, List.length_reverse]
      calc ((xs.dropWhile isBlank).reverse.dropWhile isBlank).length
          ≤ (xs.dropWhile isBlank).reverse.length := (List.dropWhile_sublist _).length_le
        _ = (xs.dropWhile isBlank).length := List.length_reverse
        _ ≤ xs.length := (List.dropWhile_sublist _).length_le
    rw [hcs, List.length_cons] at hlength
    omega

end Text

namespace Library

/-! ### Names -/

/-- A plain name, then a slash, then nothing but slashes and single dots between them. -/
def EndsBlank (name : String) : Prop :=
  ∃ plain tail, name.toList = plain ++ '/' :: tail ∧ '/' ∉ plain ∧
    Path.isBlankPiece plain = false ∧ plain ≠ ['.', '.'] ∧
    (∀ c, plain.head? = some c → Text.isBlank c = false) ∧
    ∀ p ∈ Path.piecesOf tail, Path.isBlankPiece p = true

theorem eq_slash_or_dot_of_mem {cs : List Char}
    (hcs : ∀ p ∈ Path.piecesOf cs, Path.isBlankPiece p = true)
    {c : Char} (hc : c ∈ cs) : c = '/' ∨ c = '.' := by
  induction cs with
  | nil => cases hc
  | cons x xs ih =>
    by_cases hx : x = '/'
    · rcases List.mem_cons.mp hc with rfl | hc
      · exact .inl hx
      · refine ih (fun p hp => hcs p ?_) hc
        rw [Path.piecesOf, if_pos hx]
        exact List.mem_cons_of_mem _ hp
    · obtain ⟨p, ps, hp⟩ := List.exists_cons_of_ne_nil (Path.piecesOf_ne_nil xs)
      rw [Path.piecesOf_cons_of_ne hx hp] at hcs
      -- the only blank piece with a character in it is a dot
      have hdot : x = '.' ∧ p = [] := by
        have hblank := hcs (x :: p) (by simp)
        simpa [Path.isBlankPiece] using hblank
      rcases List.mem_cons.mp hc with rfl | hc
      · exact .inr hdot.1
      · refine ih (fun q hq => ?_) hc
        rw [hp, hdot.2] at hq
        rcases List.mem_cons.mp hq with rfl | hq
        · rfl
        · exact hcs q (by simp [hq])

theorem isSingleName_iff (p : Path) :
    isSingleName p = true ↔ ∃ text, p.components = [.name text] := by
  unfold isSingleName
  split
  · rename_i text h
    simp [h]
  · rename_i h
    simp only [Bool.false_eq_true, false_iff]
    rintro ⟨text, htext⟩
    exact h text htext

/-- What a plain piece names. -/
theorem component?_of_plain {p : List Char} (hblank : Path.isBlankPiece p = false)
    (hup : p ≠ ['.', '.']) : Path.component? p = some (.name (String.ofList p)) := by
  rw [Path.component?, if_neg (by simp [hblank]), if_neg hup]

theorem components_of_endsBlank {name : String} {plain tail : List Char}
    (hname : name.toList = plain ++ '/' :: tail) (hslash : '/' ∉ plain)
    (hblank : Path.isBlankPiece plain = false) (hup : plain ≠ ['.', '.'])
    (htail : ∀ p ∈ Path.piecesOf tail, Path.isBlankPiece p = true) :
    Path.components ⟨name⟩ = [.name (String.ofList plain)] := by
  have hnone : (Path.piecesOf tail).filterMap Path.component? = [] :=
    List.filterMap_eq_nil_iff.mpr fun p hp => (Path.component?_eq_none_iff p).mpr (htail p hp)
  rw [Path.components_eq, hname, Path.componentsOf, Path.splitHead_append_of_piece hslash hblank,
    Path.piecesOf_append_slash, Path.piecesOf_of_not_mem hslash, List.filterMap_append, hnone]
  simp [component?_of_plain hblank hup, Path.headComponents]

theorem endsBlank_of_components {name text : String}
    (hcomponents : Path.components ⟨name⟩ = [.name text]) (hslash : '/' ∈ name.toList) :
    ∃ plain tail, name.toList = plain ++ '/' :: tail ∧ '/' ∉ plain ∧
      Path.isBlankPiece plain = false ∧ plain ≠ ['.', '.'] ∧
      ∀ p ∈ Path.piecesOf tail, Path.isBlankPiece p = true := by
  rw [Path.components_eq, Path.componentsOf] at hcomponents
  have hsplit := Path.splitHead_append name.toList
  -- a root or a dot in front would be the first component
  rcases Path.fits_splitHead name.toList with hroot | ⟨hdot, -⟩ | ⟨hnil, hplain⟩
  · rw [hroot] at hcomponents
    cases (List.cons.inj hcomponents).1
  · rw [hdot] at hcomponents
    cases (List.cons.inj hcomponents).1
  rw [hnil, List.nil_append] at hsplit
  rw [hnil, hsplit] at hcomponents
  rw [hsplit] at hplain
  obtain ⟨p, ps, hpieces⟩ := List.exists_cons_of_ne_nil (Path.piecesOf_ne_nil name.toList)
  have hmem : ∀ q ∈ p :: ps, '/' ∉ q := by
    rw [← hpieces]
    exact fun q hq => Path.not_mem_of_mem_piecesOf hq
  have hjoin : name.toList = Path.joinPieces (p :: ps) := by
    rw [← hpieces, Path.joinPieces_piecesOf]
  have hps : ps ≠ [] := by
    rintro rfl
    rw [hjoin] at hslash
    exact hmem p (by simp) hslash
  have hblank : Path.isBlankPiece p = false := by
    rcases hplain with hempty | ⟨q, hq, hblank⟩
    · rw [hpieces] at hempty
      exact absurd (List.cons.inj hempty).2 hps
    · rw [hpieces, List.head?_cons, Option.some.injEq] at hq
      rw [hq]
      exact hblank
  obtain ⟨c, hc⟩ : ∃ c, Path.component? p = some c := by
    refine Option.ne_none_iff_exists'.mp fun hnone => ?_
    rw [(Path.component?_eq_none_iff p).mp hnone] at hblank
    cases hblank
  rw [hpieces, List.filterMap_cons_some hc] at hcomponents
  obtain ⟨hfirst, hrest⟩ := List.cons.inj (hcomponents : c :: _ = [.name text])
  refine ⟨p, Path.joinPieces ps, ?_, hmem p (by simp), hblank, ?_, ?_⟩
  · rw [hjoin, Path.joinPieces_cons_of_ne_nil p hps]
  · rintro rfl
    cases hc
    cases hfirst
  · rw [Path.piecesOf_joinPieces hps fun q hq => hmem q (by simp [hq])]
    intro q hq
    exact (Path.component?_eq_none_iff q).mp (List.filterMap_eq_nil_iff.mp hrest q hq)

/-- A name with a slash is taken for valid exactly when it ends in this way. -/
theorem isValidName_and_slash_iff (name : String) :
    isValidName name = true ∧ '/' ∈ name.toList ↔ EndsBlank name := by
  constructor
  · rintro ⟨hvalid, hslash⟩
    simp only [isValidName, Bool.and_eq_true, isSingleName_iff, beq_iff_eq] at hvalid
    obtain ⟨⟨-, htrim⟩, text, hcomponents⟩ := hvalid
    obtain ⟨plain, tail, hname, hplain, hblank, hup, htail⟩ :=
      endsBlank_of_components hcomponents hslash
    refine ⟨plain, tail, hname, hplain, hblank, hup, fun c hc => ?_, htail⟩
    have htrim' : Text.trimChars name.toList = name.toList := by
      have h := congrArg String.toList htrim
      rwa [Text.trim, String.toList_ofList] at h
    have hhead : name.toList.head? = some c := by
      rw [hname, List.head?_append, hc]
      rfl
    exact Text.head_of_trimChars_eq_self htrim' hhead
  · rintro ⟨plain, tail, hname, hslash, hblank, hup, hhead, htail⟩
    have hmem : '/' ∈ name.toList := by simp [hname]
    refine ⟨?_, hmem⟩
    have hne : name ≠ "" := by
      rintro rfl
      cases hmem
    have htrim : Text.trim name = name := by
      rw [Text.trim, Text.trimChars_eq_self, String.ofList_toList]
      · intro c hc
        obtain ⟨x, xs, rfl⟩ : ∃ x xs, plain = x :: xs := by
          refine List.exists_cons_of_ne_nil ?_
          rintro rfl
          simp [Path.isBlankPiece] at hblank
        rw [hname] at hc
        exact hhead c hc
      · intro c hc
        have hc' : c ∈ '/' :: tail := by
          rw [hname, List.getLast?_append_of_ne_nil _ (by simp)] at hc
          exact List.mem_of_getLast? hc
        rcases List.mem_cons.mp hc' with rfl | hc'
        · decide
        · rcases eq_slash_or_dot_of_mem htail hc' with rfl | rfl <;> decide
    simp only [isValidName, Bool.and_eq_true, isSingleName_iff, beq_iff_eq]
    exact ⟨⟨by simpa using hne, htrim⟩, _, components_of_endsBlank hname hslash hblank hup htail⟩

/-! ### Candidates -/

/-- The path of a file right in one of the directories to search, which lie in the directory of a
file: it has one component more than that directory, and its parent is there. -/
def RightIn (dirs : List Path) (file : Path) (fileName : String) (path : Path) : Prop :=
  ∃ dir ∈ dirs, ∃ parent, path.parent? = some parent ∧
    parent.components = ((directoryOf file).join dir).components ∧
    path.components = parent.components ++ [.name fileName]

theorem directoryOf_ne_nil (file : Path) : (directoryOf file).text.toList ≠ [] := by
  have hdot : (".".toList : List Char) ≠ [] := by decide
  unfold directoryOf
  split
  · split
    · exact hdot
    · rename_i hne
      simpa using hne
  · exact hdot

theorem join_ne_nil {base p : Path} (hbase : base.text.toList ≠ []) :
    (base.join p).text.toList ≠ [] := by
  cases hp : p.isAbsolute with
  | true =>
    rw [Path.join, if_pos hp]
    intro hnil
    rw [Path.isAbsolute, hnil] at hp
    cases hp
  | false =>
    rw [Path.toList_join hp]
    split
    · simp [hbase]
    · simp

theorem not_mem_fileName {suffix name : String} (hsuffix : '/' ∉ suffix.toList)
    (hname : '/' ∉ name.toList) : '/' ∉ (fileName suffix name).toList := by
  have hspelled : '/' ∉ (spelled name).toList := by
    rw [spelled, String.toList_ofList, List.mem_map]
    rintro ⟨c, hc, heq⟩
    split at heq
    · cases heq
    · rw [heq] at hc
      exact hname hc
  have hfirst : '/' ∉ filePrefix.toList := by decide
  simp only [fileName, String.toList_append, List.mem_append, not_or]
  exact ⟨⟨hfirst, hspelled⟩, hsuffix⟩

theorem component?_fileName (suffix name : String) :
    Path.component? (fileName suffix name).toList = some (.name (fileName suffix name)) := by
  obtain ⟨rest, hrest⟩ : ∃ rest, (fileName suffix name).toList = 'l' :: 'i' :: 'b' :: rest :=
    ⟨(spelled name).toList ++ suffix.toList, by
      simp only [fileName, filePrefix, String.toList_append]
      rfl⟩
  rw [component?_of_plain, String.ofList_toList]
  · simp [hrest, Path.isBlankPiece]
  · simp [hrest]

/-- A candidate for a name without a slash is right in its directory. -/
theorem rightIn_of_mem_candidates {dirs : List Path} {suffix name : String} {file path : Path}
    (hsuffix : '/' ∉ suffix.toList) (hname : '/' ∉ name.toList)
    (hpath : path ∈ candidates dirs suffix name file) :
    RightIn dirs file (fileName suffix name) path := by
  obtain ⟨dir, hdir, rfl⟩ := List.mem_map.mp hpath
  have hslash := not_mem_fileName hsuffix hname
  have hrelative : Path.isAbsolute ⟨fileName suffix name⟩ = false := by
    rw [Path.isAbsolute, beq_eq_false_iff_ne]
    exact fun hhead => hslash (List.mem_of_head? hhead)
  have hcomponents : (candidateIn suffix name file dir).components =
      ((directoryOf file).join dir).components ++ [.name (fileName suffix name)] := by
    rw [candidateIn, Path.components_join (join_ne_nil (directoryOf_ne_nil file)) hrelative,
      Path.piecesOf_of_not_mem hslash]
    simp [component?_fileName]
  obtain ⟨parent, hparent, heq⟩ :=
    Path.exists_parent?_of_components hcomponents (by simp)
  exact ⟨dir, hdir, parent, hparent, heq, by rw [hcomponents, heq]⟩

/-! ### Searches -/

/-- A search that does not leave its directories through the name: a name with a slash is refused,
and so are dots; what is found, and whatever was searched, is right in one of the directories. -/
structure Stays (isFile : Path → Bool) (dirs : List Path) (suffix name : String) (file : Path) :
    Prop where
  refuses : '/' ∈ name.toList ∨ name = "." ∨ name = ".." →
    resolve isFile dirs suffix name file = .error (.invalidName name)
  found : ∀ path, resolve isFile dirs suffix name file = .ok path →
    RightIn dirs file (fileName suffix name) path
  searched : ∀ missing paths,
    resolve isFile dirs suffix name file = .error (.notFound missing paths) →
      ∀ path ∈ paths, RightIn dirs file (fileName suffix name) path

theorem resolve_ne_invalidName {name : String} (hvalid : isValidName name = true)
    (isFile : Path → Bool) (dirs : List Path) (suffix : String) (file : Path) (refused : String) :
    resolve isFile dirs suffix name file ≠ .error (.invalidName refused) := by
  rw [resolve, if_pos hvalid]
  split
  · rintro ⟨⟩
  · rintro ⟨⟩

theorem stays_of_not_endsBlank {suffix name : String} (hsuffix : '/' ∉ suffix.toList)
    (hname : ¬ EndsBlank name) (isFile : Path → Bool) (dirs : List Path) (file : Path) :
    Stays isFile dirs suffix name file := by
  have hvalid : isValidName name = true → '/' ∉ name.toList := fun hvalid hslash =>
    hname ((isValidName_and_slash_iff name).mp ⟨hvalid, hslash⟩)
  refine ⟨fun hrefused => ?_, fun path hpath => ?_, fun missing paths hmissing path hpath => ?_⟩
  · have hinvalid : ¬ isValidName name = true := by
      rcases hrefused with hslash | rfl | rfl
      · exact fun h => hvalid h hslash
      · decide
      · decide
    rw [resolve, if_neg hinvalid]
  · by_cases h : isValidName name = true
    · rw [resolve, if_pos h] at hpath
      split at hpath
      · rename_i found hfound
        cases hpath
        exact rightIn_of_mem_candidates hsuffix (hvalid h) (List.mem_of_find?_eq_some hfound)
      · cases hpath
    · rw [resolve, if_neg h] at hpath
      cases hpath
  · by_cases h : isValidName name = true
    · rw [resolve, if_pos h] at hmissing
      split at hmissing
      · cases hmissing
      · cases hmissing
        exact rightIn_of_mem_candidates hsuffix (hvalid h) hpath
    · rw [resolve, if_neg h] at hmissing
      cases hmissing

/-- **A search stays in its directories exactly for names that do not end blank.** Whatever the
directories, the file and the files that exist, a name that does is searched for instead of
refused. -/
theorem stays_iff {suffix : String} (hsuffix : '/' ∉ suffix.toList) (isFile : Path → Bool)
    (dirs : List Path) (name : String) (file : Path) :
    Stays isFile dirs suffix name file ↔ ¬ EndsBlank name := by
  constructor
  · intro hstays hname
    obtain ⟨hvalid, hslash⟩ := (isValidName_and_slash_iff name).mpr hname
    exact resolve_ne_invalidName hvalid isFile dirs suffix file name (hstays.refuses (.inl hslash))
  · exact fun hname => stays_of_not_endsBlank hsuffix hname isFile dirs file

/-- Parents in the middle of a name do not get a search out of its directories. -/
theorem stays_parents :
    '/' ∉ ".so".toList ∧ ¬ EndsBlank "a/../../b" ∧
      Stays (fun _ => true) [⟨"plugins"⟩] ".so" "a/../../b" ⟨"/work/lintconfig.json"⟩ := by
  have hsuffix : '/' ∉ ".so".toList := by decide
  have hname : ¬ EndsBlank "a/../../b" := by
    rw [← isValidName_and_slash_iff]
    decide
  exact ⟨hsuffix, hname, (stays_iff hsuffix _ _ _ _).mpr hname⟩

/-- A name with a slash at its end is not refused, and what is searched is a file in a directory that
the name has made up. -/
theorem not_stays_trailingSlash :
    ¬ Stays (fun _ => false) [⟨"plugins"⟩] ".so" "a/" ⟨"/work/lintconfig.json"⟩ ∧
      resolve (fun _ => false) [⟨"plugins"⟩] ".so" "a/" ⟨"/work/lintconfig.json"⟩ =
        .error (.notFound "a/" [⟨"/work/plugins/liba/.so"⟩]) ∧
      Path.components ⟨"/work/plugins/liba/.so"⟩ =
        [.root, .name "work", .name "plugins", .name "liba", .name ".so"] := by
  have hresolve : resolve (fun _ => false) [⟨"plugins"⟩] ".so" "a/" ⟨"/work/lintconfig.json"⟩ =
      .error (.notFound "a/" [⟨"/work/plugins/liba/.so"⟩]) := by decide
  refine ⟨fun hstays => ?_, hresolve, by decide⟩
  have hrefused := hstays.refuses (.inl (by decide))
  rw [hresolve] at hrefused
  cases hrefused

end Library

end LintDiscovery
