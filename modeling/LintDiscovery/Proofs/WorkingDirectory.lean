/-
Searches start at the working directory.

Names are resolved against a file, and searched for in the directory of that file. Discovery makes
up the file by joining a file name to the working directory, on the text; the search goes back to
its directory by the components. The two cancel out: what comes back has the components of the
working directory, whatever slashes and dots its text has. Only where there is no text at all, the
search starts at a dot.

* `components_ne_nil` — a path with a text has components;
* `components_directoryOf_containingFile` — joining and taking the directory cancel out;
* `Below`, `below_candidateIn` — where a candidate is, as seen from the working directory;
* `Probes`, `exists_settleAll_probingHost` — the probes that names add to a record;
* `probes_of_attempt` — the probes of an attempt.
-/
import LintDiscovery.Library.Host
import LintDiscovery.Proofs.CallSequence
import LintDiscovery.Proofs.FirstCandidate
import LintDiscovery.Proofs.SearchBounds
import Mathlib.Data.List.Forall2

namespace LintDiscovery

/-! ### The directory of the file -/

/-- A path with a text names something. -/
theorem Path.components_ne_nil {p : Path} (hp : p.text.toList ≠ []) : p.components ≠ [] := by
  rw [components_eq, componentsOf]
  have happend := splitHead_append p.text.toList
  rcases fits_splitHead p.text.toList with hhead | ⟨hhead, -⟩ | ⟨hhead, hempty | hfirst⟩
  · simp [hhead, headComponents]
  · simp [hhead, headComponents]
  · -- neither a head nor a body is left of the text
    have hbody : (splitHead p.text.toList).2 = [] := by
      rw [← joinPieces_piecesOf (splitHead p.text.toList).2, hempty]
      rfl
    rw [hhead, hbody] at happend
    exact absurd happend.symm hp
  · obtain ⟨q, hq, hblank⟩ := hfirst
    obtain ⟨qs, hqs⟩ := List.head?_eq_some_iff.mp hq
    obtain ⟨c, hc⟩ : ∃ c, component? q = some c := by
      refine Option.ne_none_iff_exists'.mp fun hnone => ?_
      rw [(component?_eq_none_iff q).mp hnone] at hblank
      cases hblank
    simp [hqs, hc]

namespace Library

variable {κ δ : Type}

/-- **Joining a file name and taking the directory cancel out**, up to the text. -/
theorem components_directoryOf_containingFile {c : Path} (hc : c.text.toList ≠ []) :
    (directoryOf (containingFile (some c))).components = c.components := by
  have hfile : (containingFile (some c)).components = c.components ++ [.name configFileName] := by
    rw [containingFile, Path.components_join hc (by decide)]
    rfl
  obtain ⟨parent, hparent, hcomponents⟩ := Path.exists_parent?_of_components hfile (by simp)
  have hne : parent.text ≠ "" := by
    intro hnil
    have hempty : parent.components = [] := by
      rw [Path.components_eq, hnil]
      rfl
    exact Path.components_ne_nil hc (hcomponents.symm.trans hempty)
  rw [directoryOf, hparent]
  simp only [if_neg hne, hcomponents]

theorem directoryOf_containingFile_none : directoryOf (containingFile none) = ⟨"."⟩ := by
  decide

theorem directoryOf_containingFile_empty : directoryOf (containingFile (some ⟨""⟩)) = ⟨"."⟩ := by
  decide

/-- Paths that are joined to directories with the same components have the same components. -/
theorem components_join_congr {base base' : Path} (hbase : base.text.toList ≠ [])
    (hbase' : base'.text.toList ≠ []) (heq : base.components = base'.components) (p : Path) :
    (base.join p).components = (base'.join p).components := by
  cases hp : p.isAbsolute with
  | true => rw [Path.join, Path.join, if_pos hp, if_pos hp]
  | false => rw [Path.components_join hbase hp, Path.components_join hbase' hp, heq]

/-- Where a candidate for a name in a directory to search is: below the working directory, or below
a dot when there is none, or none to speak of. -/
inductive Below : Option Path → String → Path → Path → Prop
  | given {c dir path : Path} {name : String} (hc : c.text ≠ "")
      (hpath : path.components = ((c.join dir).join ⟨fileName fileSuffix name⟩).components) :
      Below (some c) name dir path
  | missing (name : String) (dir : Path) :
      Below none name dir ((Path.join ⟨"."⟩ dir).join ⟨fileName fileSuffix name⟩)
  | empty (name : String) (dir : Path) :
      Below (some ⟨""⟩) name dir ((Path.join ⟨"."⟩ dir).join ⟨fileName fileSuffix name⟩)

theorem below_candidateIn (directory : Option Path) (name : String) (dir : Path) :
    Below directory name dir (candidateIn fileSuffix name (containingFile directory) dir) := by
  rcases directory with _ | c
  · rw [candidateIn, directoryOf_containingFile_none]
    exact .missing name dir
  by_cases hc : c.text = ""
  · obtain rfl : c = ⟨""⟩ := by rw [← hc]
    rw [candidateIn, directoryOf_containingFile_empty]
    exact .empty name dir
  · have htext : c.text.toList ≠ [] := by simpa using hc
    have hbase := directoryOf_ne_nil (containingFile (some c))
    have hdir := components_join_congr hbase htext (components_directoryOf_containingFile htext) dir
    exact .given hc (components_join_congr (join_ne_nil hbase) (join_ne_nil htext) hdir _)

/-! ### The probes of names in sequence -/

/-- What is probed for a name on behalf of discovery: the probes of one search, each of which is
where the directory that it is for lies below the working directory. -/
def Probes (isFile : Path → Bool) (dirs : List Path) (directory : Option Path) (name : String)
    (probes : List Path) : Prop :=
  ∃ answer tried, Finds isFile dirs fileSuffix name (containingFile directory) answer probes ∧
    tried <+: dirs ∧ List.Forall₂ (Below directory name) tried probes

/-- The probes of a search are candidates in the first directories. -/
theorem Finds.exists_tried {isFile : Path → Bool} {dirs : List Path} {suffix name : String}
    {file : Path} {answer : Except ResolveError Path} {probes : List Path}
    (h : Finds isFile dirs suffix name file answer probes) :
    ∃ tried, tried <+: dirs ∧ probes = tried.map (candidateIn suffix name file) := by
  cases h with
  | refused _ => exact ⟨[], List.nil_prefix, rfl⟩
  | @found before after dir _ hdirs _ _ =>
    exact ⟨before ++ [dir], ⟨after, by simp [hdirs]⟩, rfl⟩
  | missing _ _ => exact ⟨dirs, List.prefix_rfl, rfl⟩

variable (disk : Disk (Image κ) δ) (state : δ) (dirs : List Path) (directory : Option Path)

/-- A record of the probes makes no other difference. -/
theorem seenThrough_probingHost :
    Host.SeenThrough (fun _ => ()) (probingHost disk state dirs directory)
      (host disk state dirs directory) where
  directory _ := rfl
  resolve name file record := by
    obtain ⟨answer, probes, h⟩ :=
      exists_finds (fun p => disk.isFile p state) (searchDirs dirs) fileSuffix name file
    simp only [probingHost, host, Host.pure, Host.answer, h.search_append, h.resolve]
  hasLoader _ := rfl
  load _ _ := rfl

/-- A name is settled, and its probes go on record. -/
theorem exists_settle_probingHost (name : String) (record : List Path) :
    ∃ fate probes,
      LoadPhase.settle (probingHost disk state dirs directory) (containingFile directory) name
        record = (.ok fate, record ++ probes) ∧
      Probes (fun p => disk.isFile p state) (searchDirs dirs) directory name probes := by
  obtain ⟨answer, probes, h⟩ := exists_finds (fun p => disk.isFile p state) (searchDirs dirs)
    fileSuffix name (containingFile directory)
  have hprobes : Probes (fun p => disk.isFile p state) (searchDirs dirs) directory name probes := by
    obtain ⟨tried, htried, rfl⟩ := h.exists_tried
    refine ⟨answer, tried, h, htried, ?_⟩
    rw [List.forall₂_map_right_iff, List.forall₂_same]
    exact fun dir _ => below_candidateIn directory name dir
  cases answer with
  | error e =>
    refine ⟨.unresolved e, probes, ?_, hprobes⟩
    simp only [LoadPhase.settle, probingHost, h.search_append]
  | ok path =>
    refine ⟨.ofLoading path (.ok (load (fun p => disk.image p state) entryPoint path)), probes, ?_,
      hprobes⟩
    simp only [LoadPhase.settle, probingHost, h.search_append, Host.answer]

/-- Nothing interrupts names in sequence, and the probes of all of them go on record. -/
theorem exists_settleAll_probingHost (names : List String) (record : List Path) :
    ∃ probes,
      (LoadPhase.settleAll (probingHost disk state dirs directory) (containingFile directory) names
        record).2 = record ++ probes.flatten ∧
      List.Forall₂ (Probes (fun p => disk.isFile p state) (searchDirs dirs) directory)
        names probes := by
  induction names generalizing record with
  | nil => exact ⟨[], by simp [LoadPhase.settleAll], .nil⟩
  | cons name rest ih =>
    obtain ⟨fate, first, hsettle, hfirst⟩ :=
      exists_settle_probingHost disk state dirs directory name record
    obtain ⟨others, hrest, hothers⟩ := ih (record ++ first)
    refine ⟨first :: others, ?_, .cons hfirst hothers⟩
    simp only [LoadPhase.settleAll, hsettle, hrest, List.flatten_cons, List.append_assoc]

/-- **Searches start at the working directory.** Whatever its text is, the directory of the file
that names are resolved against has its components, and is a dot where there is no text. An attempt
at discovery on a disk comes to the same with a record of its probes, and makes the probes of one
search for each name, in their order; each of them has the components of the working directory
joined with a directory to search and the file name of the library. -/
theorem probes_of_attempt (setting : ExtensionSetting) (policy : UnknownKindPolicy) :
    (∀ c, directory = some c → c.text ≠ "" →
        (directoryOf (containingFile directory)).components = c.components) ∧
      (directory = none ∨ directory = some ⟨""⟩ →
        directoryOf (containingFile directory) = ⟨"."⟩) ∧
      ∃ probes : List (List Path),
        Discovery.attempt setting policy (probingHost disk state dirs directory) [] =
          ((Discovery.attempt setting policy (host disk state dirs directory) ()).1,
            probes.flatten) ∧
        List.Forall₂ (Probes (fun p => disk.isFile p state) (searchDirs dirs) directory)
          setting.names probes := by
  refine ⟨?_, ?_, ?_⟩
  · rintro c rfl hc
    exact components_directoryOf_containingFile (by simpa using hc)
  · rintro (rfl | rfl)
    · exact directoryOf_containingFile_none
    · exact directoryOf_containingFile_empty
  · obtain ⟨probes, hrecord, hprobes⟩ :=
      exists_settleAll_probingHost disk state dirs directory setting.names []
    refine ⟨probes, ?_, hprobes⟩
    have hseen := LoadPhase.run_seenThrough (seenThrough_probingHost disk state dirs directory)
      setting.names []
    have hrun : (LoadPhase.run (probingHost disk state dirs directory) setting.names []).2 =
        probes.flatten := hrecord
    simp only [Discovery.attempt, hseen, hrun]

/-- Slashes and dots that name nothing come and go, parents stay. -/
example : (directoryOf (containingFile (some ⟨"//work/./lint/.././/"⟩))).components =
    [.root, .name "work", .name "lint", .up] := by
  decide

end Library

end LintDiscovery
