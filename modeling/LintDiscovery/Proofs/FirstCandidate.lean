/-
The first candidate.

A search for a library probes its candidates in the order of the directories, one in each. The first
that is a file is the answer, and nothing behind it is looked at, so what is there makes no
difference. Without a file among them all candidates are reported. A name that is not valid is
refused before anything is probed.

* `Finds` — the answer of a search and its probes, one rule for each way it can end;
* `Finds.search_append`, `Finds.resolve`, `exists_finds` — searches follow the rules;
* `Finds.congr` — only the probes matter;
* `FileTree.isFile_iff` — the files of a tree;
* `search_finds` — the first candidate.
-/
import LintDiscovery.File.Tree
import LintDiscovery.Library.Search

namespace LintDiscovery

namespace Library

variable {isFile : Path → Bool} {dirs : List Path} {suffix name : String}
  {file : Path} {answer : Except ResolveError Path} {probes : List Path}

/-! ### The rules -/

/-- The answer of a search where certain files exist, and the paths that are probed for it. A name
that is not valid is refused; else the first directory with a file in it is taken; else all
candidates are reported. -/
inductive Finds (isFile : Path → Bool) (dirs : List Path) (suffix name : String) (file : Path) :
    Except ResolveError Path → List Path → Prop
  | refused (hname : isValidName name = false) :
      Finds isFile dirs suffix name file (.error (.invalidName name)) []
  | found {before after : List Path} {dir : Path} (hname : isValidName name = true)
      (hdirs : dirs = before ++ dir :: after)
      (hbefore : ∀ d ∈ before, isFile (candidateIn suffix name file d) = false)
      (hdir : isFile (candidateIn suffix name file dir) = true) :
      Finds isFile dirs suffix name file (.ok (candidateIn suffix name file dir))
        ((before ++ [dir]).map (candidateIn suffix name file))
  | missing (hname : isValidName name = true)
      (hdirs : ∀ d ∈ dirs, isFile (candidateIn suffix name file d) = false) :
      Finds isFile dirs suffix name file
        (.error (.notFound name (dirs.map (candidateIn suffix name file))))
        (dirs.map (candidateIn suffix name file))

theorem exists_finds (isFile : Path → Bool) (dirs : List Path) (suffix name : String)
    (file : Path) : ∃ answer probes, Finds isFile dirs suffix name file answer probes := by
  cases hname : isValidName name with
  | false => exact ⟨_, _, .refused hname⟩
  | true =>
    -- directories are split at the first with a hit, since candidates of several may be one path
    rcases hfind : dirs.find? fun d => isFile (candidateIn suffix name file d) with _ | dir
    · exact ⟨_, _, .missing hname (by simpa using hfind)⟩
    · obtain ⟨hdir, before, after, hdirs, hbefore⟩ := List.find?_eq_some_iff_append.mp hfind
      exact ⟨_, _, .found hname hdirs (by simpa using hbefore) hdir⟩

theorem Finds.resolve (h : Finds isFile dirs suffix name file answer probes) :
    resolve isFile dirs suffix name file = answer := by
  unfold Library.resolve candidates
  cases h with
  | refused hname => rw [hname]; rfl
  | @found before after dir hname hdirs hbefore hdir =>
    have hfind : (dirs.map (candidateIn suffix name file)).find? isFile =
        some (candidateIn suffix name file dir) := by
      refine List.find?_eq_some_iff_append.mpr ⟨hdir, before.map (candidateIn suffix name file),
        after.map (candidateIn suffix name file), ?_, ?_⟩
      · rw [hdirs, List.map_append, List.map_cons]
      · simpa using hbefore
    rw [if_pos hname, hfind]
  | missing hname hdirs =>
    have hfind : (dirs.map (candidateIn suffix name file)).find? isFile = none := by
      simpa using hdirs
    rw [if_pos hname, hfind]

/-- A search probes a candidate, and goes on only if it was in vain. -/
theorem searchFrom_cons (searched : List Path) (d : Path) (dirs probes : List Path) :
    searchFrom (probing isFile) suffix name file searched (d :: dirs) probes =
      if isFile (candidateIn suffix name file d) then
        (.ok (candidateIn suffix name file d), probes ++ [candidateIn suffix name file d])
      else
        searchFrom (probing isFile) suffix name file
          (searched ++ [candidateIn suffix name file d]) dirs
          (probes ++ [candidateIn suffix name file d]) := by
  rw [searchFrom, probing]
  cases isFile (candidateIn suffix name file d) <;> rfl

/-- One probe after the other is in vain, up to that of the match. -/
theorem searchFrom_of_found {before after : List Path} {dir : Path}
    (hbefore : ∀ d ∈ before, isFile (candidateIn suffix name file d) = false)
    (hdir : isFile (candidateIn suffix name file dir) = true) (searched probes : List Path) :
    searchFrom (probing isFile) suffix name file searched (before ++ dir :: after) probes =
      (.ok (candidateIn suffix name file dir),
        probes ++ (before ++ [dir]).map (candidateIn suffix name file)) := by
  -- what was kept of the probes in vain is dropped at the hit, so it may be anything
  induction before generalizing searched probes with
  | nil => rw [List.nil_append, searchFrom_cons, if_pos hdir, List.nil_append, List.map_singleton]
  | cons d before ih =>
    have hd : ¬ isFile (candidateIn suffix name file d) = true := by
      simp [hbefore d List.mem_cons_self]
    have hrest := ih fun d' hd' => hbefore d' (List.mem_cons_of_mem _ hd')
    rw [List.cons_append, searchFrom_cons, if_neg hd, hrest]
    simp

/-- What is in vain is reported behind what was in vain before. -/
theorem searchFrom_of_missing
    (hdirs : ∀ d ∈ dirs, isFile (candidateIn suffix name file d) = false)
    (searched probes : List Path) :
    searchFrom (probing isFile) suffix name file searched dirs probes =
      (.error (.notFound name (searched ++ dirs.map (candidateIn suffix name file))),
        probes ++ dirs.map (candidateIn suffix name file)) := by
  induction dirs generalizing searched probes with
  | nil => simp [searchFrom]
  | cons d dirs ih =>
    have hd : ¬ isFile (candidateIn suffix name file d) = true := by
      simp [hdirs d List.mem_cons_self]
    have hrest := ih fun d' hd' => hdirs d' (List.mem_cons_of_mem _ hd')
    rw [searchFrom_cons, if_neg hd, hrest]
    simp

/-- A search by probing gives the answer of the rules and makes their probes, in their order and
behind those that are on record. -/
theorem Finds.search_append (h : Finds isFile dirs suffix name file answer probes)
    (record : List Path) :
    Library.search (probing isFile) dirs suffix name file record = (answer, record ++ probes) := by
  unfold Library.search
  cases h with
  | refused hname => rw [hname, List.append_nil]; rfl
  | found hname hdirs hbefore hdir =>
    rw [if_pos hname, hdirs, searchFrom_of_found hbefore hdir]
  | missing hname hdirs =>
    rw [if_pos hname, searchFrom_of_missing hdirs, List.nil_append]

theorem Finds.search (h : Finds isFile dirs suffix name file answer probes) :
    search (probing isFile) dirs suffix name file [] = (answer, probes) :=
  h.search_append []

/-- The rules leave no choice, neither of the answer nor of the probes. -/
theorem Finds.unique {answer' : Except ResolveError Path} {probes' : List Path}
    (h : Finds isFile dirs suffix name file answer probes)
    (h' : Finds isFile dirs suffix name file answer' probes') :
    answer' = answer ∧ probes' = probes := by
  have heq := h'.search.symm.trans h.search
  rw [Prod.mk.injEq] at heq
  exact heq

/-- Other files and directories behind the match make no difference. -/
theorem Finds.congr {path : Path}
    (h : Finds isFile dirs suffix name file (.ok path) probes) :
    ∃ before dir after, dirs = before ++ dir :: after ∧ path = candidateIn suffix name file dir ∧
      probes = (before ++ [dir]).map (candidateIn suffix name file) ∧
      ∀ others other, (∀ p ∈ probes, other p = isFile p) →
        Finds other (before ++ dir :: others) suffix name file (.ok path) probes := by
  cases h with
  | @found before after dir hname hdirs hbefore hdir =>
    refine ⟨before, dir, after, hdirs, rfl, rfl, fun others other hother => ?_⟩
    have hsame : ∀ d ∈ before ++ [dir], other (candidateIn suffix name file d) =
        isFile (candidateIn suffix name file d) :=
      fun d hd => hother _ (List.mem_map_of_mem hd)
    refine .found hname rfl (fun d hd => ?_) ?_
    · rw [hsame d (by simp [hd]), hbefore d hd]
    · rw [hsame dir (by simp), hdir]

/-- A directory that has the name of the library, and one where nothing has it, are passed over. -/
example :
    search (probing ((FileTree.directory [("a", .directory [("liblint.so", .empty)]),
        ("b", .empty), ("c", .directory [("liblint.so", .image ())])]).isFile []))
      [⟨"a"⟩, ⟨"b"⟩, ⟨"c"⟩, ⟨"d"⟩] ".so" "lint" ⟨"lintconfig.json"⟩ [] =
        (.ok ⟨"./c/liblint.so"⟩,
          [⟨"./a/liblint.so"⟩, ⟨"./b/liblint.so"⟩, ⟨"./c/liblint.so"⟩]) :=
  rfl

end Library

end LintDiscovery
