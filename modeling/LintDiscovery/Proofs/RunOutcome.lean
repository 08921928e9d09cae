/-
What a run comes to.

A run succeeds in four steps: its journal starts, its configuration is read, this holds what a
configuration has to, and nothing is said against what discovery finds. The first three decide
whether anything is printed, the last only about the exit status. What is printed is one report,
whatever form it has; where the configuration lies makes no difference to it, as names are looked
for from the working directory.

* `Library.answers`, `Library.gives` — what the host that searches directories answers;
* `Invocation.Starts`, `starts_iff` — the journal of a run;
* `Invocation.Accepts`, `accepts_iff` — the configuration of a run;
* `Config.attempt`, `followsAnswers_attempt` — the attempt of a run;
* `Invocation.run_of_accepts`, `Invocation.run_of_not_accepts` — the two ways a run can go;
* `Invocation.arguments`, `Request.ofArguments_arguments` — arguments for every run;
* `Invocation.outcome_of_run` — all of it together.
-/
import LintDiscovery.Program.Run
import LintDiscovery.Proofs.ConfigRoundTrip
import LintDiscovery.Proofs.JournalSetup
import LintDiscovery.Proofs.ReportContents
import LintDiscovery.Proofs.Steady

namespace LintDiscovery

variable {κ δ : Type}

/-! ### The host -/

/-- What the host that searches directories answers. Names are looked for below the directory of
the file that goes with the working directory. -/
def Library.answers (disk : Disk (Library.Image κ) δ) (state : δ) (dirs : List Path)
    (directory : Option Path) : Answers κ where
  resolve name := resolve (fun p => disk.isFile p state) (searchDirs dirs) fileSuffix name
    (containingFile directory)
  hasLoader := true
  load path := .ok (load (fun p => disk.image p state) entryPoint path).result

theorem Library.gives (disk : Disk (Library.Image κ) δ) (state : δ) (dirs : List Path)
    (directory : Option Path) :
    (Library.host disk state dirs directory).Gives (Library.answers disk state dirs directory) where
  directory _ := ⟨directory, rfl⟩
  resolve name s d hd _ := by
    cases hd
    rfl
  hasLoader _ := rfl
  load _ _ := rfl

/-! ### The attempt -/

/-- The attempt at what a configuration asks for, on a disk and in a working directory. -/
def Config.attempt (c : Config) (disk : Disk (Library.Image κ) δ) (state : δ)
    (directory : Option Path) : Attempt κ :=
  (Discovery.attempt c.extensions c.policy (Library.host disk state c.dirs directory) ()).1

theorem Config.followsAnswers_attempt (c : Config) (disk : Disk (Library.Image κ) δ) (state : δ)
    (directory : Option Path) :
    Discovery.FollowsAnswers (Library.answers disk state c.dirs directory) c.extensions c.policy
      (c.attempt disk state directory) :=
  Discovery.attempt_of_gives (Library.gives disk state c.dirs directory) _ _ ()

/-- The report of the attempt shows what is accepted of what the names yield. -/
theorem Config.shows_attempt (c : Config) (disk : Disk (Library.Image κ) δ) (state : δ)
    (directory : Option Path) :
    (Report.ofDiscovery (c.attempt disk state directory).found).Shows
      (Discovery.acceptedOf (Library.answers disk state c.dirs directory) c.extensions c.policy)
      (c.attempt disk state directory).found.diagnostics := by
  have hfollows := c.followsAnswers_attempt disk state directory
  have hshows := Report.shows_ofDiscovery hfollows.result
  rw [Discovery.acceptedOf, ← hfollows.modules]
  exact hshows

theorem Problem.code_diagnostic_le (p : Problem) : p.diagnostic.code ≤ Json.maxInteger := by
  cases p <;> exact of_decide_eq_true rfl

theorem Attempt.code_le {a : Attempt κ} {d : Discovery κ} (hd : a.result = .ok d) :
    ∀ x ∈ d.diagnostics, x.code ≤ Json.maxInteger := by
  obtain ⟨-, rfl⟩ := Attempt.result_eq_ok_iff.mp hd
  intro x hx
  obtain ⟨p, -, rfl⟩ := List.mem_map.mp hx
  exact p.code_diagnostic_le

namespace Invocation

/-! ### The journal -/

/-- The journal of a run starts, if there is one, and its file is made. The disk is then in another
state. -/
inductive Starts (disk : Disk (Library.Image κ) δ) (i : Invocation) (state : δ) : δ → Prop
  | silent (hdir : i.logDir = none) : Starts disk i state state
  | journal {dir : String} {j : Journal} {made : δ} (hdir : i.logDir = some dir)
      (hr : JournalRequest.Asks ⟨i.logLevel.getD "debug", dir⟩ j)
      (hmake : disk.makeDirectories j.dir state = (.ok (), made)) :
      Starts disk i state
        (Journal.openFile disk (some j) [.journalStarted j.level j.dir version] made)

theorem starts_iff {disk : Disk (Library.Image κ) δ} {i : Invocation} {state last : δ} :
    i.Starts disk state last ↔
      (i.openJournal disk state).result = .ok () ∧
        last = Journal.openFile disk (i.openJournal disk state).active
          (i.openJournal disk state).events (i.openJournal disk state).disk := by
  rcases hdir : i.logDir with _ | dir
  · have hopen : i.openJournal disk state = ⟨.ok (), none, state, []⟩ := by
      simp only [openJournal, hdir]
    rw [hopen]
    constructor
    · intro h
      cases h with
      | silent _ => exact ⟨rfl, rfl⟩
      | journal hdir' _ _ => cases hdir.symm.trans hdir'
    · rintro ⟨-, rfl⟩
      exact .silent hdir
  · have hopen : i.openJournal disk state = Journal.activate disk.makeDirectories true
        (i.logLevel.getD Level.standard.name) dir none state := by
      simp only [openJournal, hdir]
    rw [hopen]
    obtain ⟨a, ha⟩ := Journal.exists_answered disk.makeDirectories
      ⟨i.logLevel.getD Level.standard.name, dir⟩ none state
    rw [Journal.answered_iff.mp ha]
    constructor
    · intro h
      cases h with
      | silent hdir' => cases hdir.symm.trans hdir'
      | journal hdir' hr hmake =>
        cases hdir.symm.trans hdir'
        rw [ha.unique (.started hr hmake)]
        exact ⟨rfl, rfl⟩
    · rintro ⟨hok, rfl⟩
      cases ha with
      | faulty _ => cases hok
      | cannotMakeDir _ _ => cases hok
      | started hr hmake => exact .journal hdir hr hmake

/-! ### The configuration -/

/-- A run comes to its configuration and accepts it: the journal starts, and a text can be read that
holds a configuration. -/
structure Accepts (disk : Disk (Library.Image κ) δ) (i : Invocation) (state last : δ)
    (c : Config) : Prop where
  starts : i.Starts disk state last
  reads : ∃ raw, disk.readText i.config last = .ok raw ∧ Config.ofText raw = .ok c

theorem accepts_iff {disk : Disk (Library.Image κ) δ} {i : Invocation} {state last : δ}
    {c : Config} :
    i.Accepts disk state last c ↔
      i.Starts disk state last ∧
        Config.ofFile (fun p => disk.readText p last) i.config = .ok c := by
  constructor
  · rintro ⟨hstarts, raw, hraw, hc⟩
    exact ⟨hstarts, by simp only [Config.ofFile, hraw, hc]⟩
  · rintro ⟨hstarts, hfile⟩
    refine ⟨hstarts, ?_⟩
    rcases hraw : disk.readText i.config last with e | raw
    · simp only [Config.ofFile, hraw] at hfile
      cases hfile
    · simp only [Config.ofFile, hraw] at hfile
      exact ⟨raw, rfl, hfile⟩

/-! ### The two ways -/

/-- A run that accepts its configuration comes to what the attempt does. -/
theorem run_of_accepts {disk : Disk (Library.Image κ) δ} {directory : Option Path} {i : Invocation}
    {state last : δ} {c : Config} (h : i.Accepts disk state last c) :
    i.run disk directory state =
      ((Outcome.ofAttempt i.json (c.attempt disk last directory)).logging
        (i.openJournal disk state).active (i.openJournal disk state).events, last) := by
  obtain ⟨hstarts, hfile⟩ := accepts_iff.mp h
  obtain ⟨hok, rfl⟩ := starts_iff.mp hstarts
  simp only [run, hok, discover, hfile]
  rfl

/-- A run that does not accept its configuration fails and prints nothing. -/
theorem run_of_not_accepts {disk : Disk (Library.Image κ) δ} {directory : Option Path}
    {i : Invocation} {state : δ} (h : ∀ last c, ¬i.Accepts disk state last c) :
    (i.run disk directory state).1.exit = 1 ∧ (i.run disk directory state).1.stdout = "" := by
  rcases hjournal : (i.openJournal disk state).result with e | ⟨⟩
  · simp only [run, hjournal]
    exact ⟨rfl, rfl⟩
  · have hstarts := starts_iff.mpr ⟨hjournal, rfl⟩
    rcases hfile : Config.ofFile (fun p => disk.readText p (Journal.openFile disk
        (i.openJournal disk state).active (i.openJournal disk state).events
        (i.openJournal disk state).disk)) i.config with e | c
    · simp only [run, hjournal, discover, hfile]
      exact ⟨rfl, rfl⟩
    · exact absurd (accepts_iff.mpr ⟨hstarts, hfile⟩) (h _ c)

/-- Only the directory and the level of the journal matter to its start. -/
theorem Starts.congr {disk : Disk (Library.Image κ) δ} {i i' : Invocation} {state last : δ}
    (h : i.Starts disk state last) (hdir : i'.logDir = i.logDir)
    (hlevel : i'.logLevel = i.logLevel) : i'.Starts disk state last := by
  cases h with
  | silent hnone => exact .silent (hdir.trans hnone)
  | journal hsome hr hmake =>
    rw [← hlevel] at hr
    exact .journal (hdir.trans hsome) hr hmake

/-- The form of the report makes no difference to what is accepted. -/
theorem Accepts.inForm {disk : Disk (Library.Image κ) δ} {i : Invocation} {state last : δ}
    {c : Config} (h : i.Accepts disk state last c) (json : Bool) :
    { i with json := json }.Accepts disk state last c :=
  ⟨h.starts.congr rfl rfl, h.reads⟩

/-- Another place of the configuration makes no difference either, if the same can be read there. -/
theorem Accepts.elsewhere {disk : Disk (Library.Image κ) δ} {i : Invocation} {state last : δ}
    {c : Config} (h : i.Accepts disk state last c) {path : Path}
    (hpath : disk.readText path last = disk.readText i.config last) :
    { i with config := path }.Accepts disk state last c :=
  ⟨h.starts.congr rfl rfl, by simpa only [hpath] using h.reads⟩

/-! ### Arguments -/

/-- A flag by its long name, with a value behind an equals sign. -/
def assignment (name value : String) : String :=
  "--" ++ name ++ "=" ++ value

/-- Arguments that ask for a run. -/
def arguments (i : Invocation) : List String :=
  assignment "config" i.config.text :: ((if i.json then ["--json"] else []) ++
    ((i.logDir.map (assignment "log-dir")).toList ++
      (i.logLevel.map (assignment "log-level")).toList))

end Invocation

namespace Request

theorem form_assignment {name : String} {f : Flag} (hf : Flag.ofLong? name = some f)
    (hname : '=' ∉ name.toList) (value : String) :
    form (Invocation.assignment name value) = .flag f (some value) := by
  have hother : ∀ c ∈ name.toList, (c != '=') = true := by
    intro c hc
    exact bne_iff_ne.mpr (ne_of_mem_of_not_mem hc hname)
  have hlist : (Invocation.assignment name value).toList =
      '-' :: '-' :: (name.toList ++ '=' :: value.toList) := by
    simp [Invocation.assignment, String.toList_append]
  have hlong : longForm (name.toList ++ '=' :: value.toList) = .flag f (some value) := by
    have htake : (name.toList ++ '=' :: value.toList).takeWhile (· != '=') = name.toList := by
      rw [List.takeWhile_append_of_pos hother]
      simp
    have hdrop : (name.toList ++ '=' :: value.toList).dropWhile (· != '=') =
        '=' :: value.toList := by
      rw [List.dropWhile_append_of_pos hother]
      simp
    simp only [longForm, htake, hdrop, String.ofList_toList, hf]
  rw [form, hlist]
  rcases hrest : name.toList ++ '=' :: value.toList with _ | ⟨c, cs⟩
  · simp at hrest
  · rw [← hlong, hrest]
    rfl

theorem read_assignment {name : String} {f : Flag} (hf : Flag.ofLong? name = some f)
    (hname : '=' ∉ name.toList) (htakes : f.takesValue = true)
    (value : String) (g : Given) (rest : List String) :
    read none g (Invocation.assignment name value :: rest) =
      (g.add f value >>= fun g' => read none g' rest) := by
  have hform := form_assignment hf hname value
  cases f with
  | config | logDir | logLevel => simp only [read, hform, htakes, if_true]
  | json | help | version => cases htakes

theorem read_json (json : Bool) (config : Option Path) (logDir logLevel : Option String)
    (rest : List String) :
    read none ⟨config, false, logDir, logLevel⟩ ((if json then ["--json"] else []) ++ rest) =
      read none ⟨config, json, logDir, logLevel⟩ rest := by
  have hform : form "--json" = .flag .json none := by decide
  cases json with
  | false => rfl
  | true =>
    simp only [if_true, List.singleton_append, read, hform, Flag.takesValue]
    rfl

/-- An argument that may be left out: what it sets is set where it is there. -/
theorem read_assignment? {name : String} {f : Flag} (hf : Flag.ofLong? name = some f)
    (hname : '=' ∉ name.toList) (htakes : f.takesValue = true) {g : Option String → Given}
    (hadd : ∀ value, (g none).add f value = .ok (g (some value))) (value? : Option String)
    (rest : List String) :
    read none (g none) ((value?.map (Invocation.assignment name)).toList ++ rest) =
      read none (g value?) rest := by
  cases value? with
  | none => rfl
  | some value =>
    refine (read_assignment hf hname htakes value (g none) rest).trans ?_
    rw [hadd]
    rfl

/-- Every run is asked for by some arguments, unless its configuration has no path. -/
theorem ofArguments_arguments {i : Invocation} (hi : i.config.text ≠ "") :
    ofArguments i.arguments = .ok (.run i) := by
  obtain ⟨config, json, logDir, logLevel⟩ := i
  have hconfig : Given.none.add .config config.text = .ok ⟨some config, false, none, none⟩ := by
    simp [Given.add, Given.has, Given.none, Given.set, hi]
  have hdir := read_assignment? (show Flag.ofLong? "log-dir" = some .logDir from rfl) (by decide)
    rfl (g := fun dir => ⟨some config, json, dir, none⟩) (fun _ => rfl) logDir
  have hlevel := read_assignment? (show Flag.ofLong? "log-level" = some .logLevel from rfl)
    (by decide) rfl (g := fun level => ⟨some config, json, logDir, level⟩) (fun _ => rfl) logLevel
    []
  rw [List.append_nil] at hlevel
  rw [ofArguments, Invocation.arguments,
    read_assignment (show Flag.ofLong? "config" = some .config from rfl) (by decide) rfl, hconfig]
  show read none ⟨some config, false, none, none⟩ _ = _
  rw [read_json, hdir, hlevel]
  rfl

end Request

/-! ### The outcome -/

/-- An outcome reports: it prints a report and nothing else, either on lines of text or as a JSON
value that has this report in it and no other. It is a success where the report has no
diagnostics. -/
structure Outcome.Reports (o : Outcome) (json : Bool) (r : Report) : Prop where
  exit : o.exit = if r.diagnostics.isEmpty then 0 else 1
  text : json = false → r.InText o.stdout
  value : json = true → ∃ v, Json.parse o.stdout = .ok v ∧ ∀ r' : Report, r'.InJson v ↔ r' = r

theorem Outcome.Reports.exit_eq_zero_iff {o : Outcome} {json : Bool} {r : Report}
    (h : o.Reports json r) : o.exit = 0 ↔ r.diagnostics = [] := by
  rw [h.exit]
  cases r.diagnostics <;> simp

namespace Invocation

/-- A run that accepts its configuration reports what the attempt finds. -/
theorem reports_of_accepts {disk : Disk (Library.Image κ) δ} {directory : Option Path}
    {i : Invocation} {state last : δ} {c : Config} (h : i.Accepts disk state last c)
    {d : Discovery κ} (hd : (c.attempt disk last directory).result = .ok d) :
    (i.run disk directory state).1.Reports i.json (Report.ofDiscovery d) := by
  rw [run_of_accepts h]
  simp only [Outcome.ofAttempt, hd]
  refine ⟨rfl, fun hjson => ?_, fun hjson => ?_⟩
  · simp only [Outcome.logging, hjson]
    exact Report.inText_unlines _
  · simp only [Outcome.logging, hjson]
    exact ⟨_, Report.parse_text (Attempt.code_le hd), fun _ => Report.inJson_toJson_iff⟩

/-- What a run tells that accepts its configuration: the attempt yields a discovery, of which there
is one report, whichever form it is printed in. As text it has a notice exactly where it has no
extensions. Where the same can be read elsewhere, the run from there is the same. -/
structure Tells (disk : Disk (Library.Image κ) δ) (directory : Option Path) (i : Invocation)
    (state last : δ) (c : Config) (d : Discovery κ) (r : Report) : Prop where
  result : (c.attempt disk last directory).result = .ok d
  contents : r.Shows
    (Discovery.acceptedOf (Library.answers disk last c.dirs directory) c.extensions c.policy)
    d.diagnostics
  notice : ∀ lines, r.OnLines lines → ("no extensions loaded" ∈ lines ↔ r.extensions = [])
  noticeFirst : (programName ++ " " ++ version ++ "\nno extensions loaded\n").toList <+:
    ({ i with json := false }.run disk directory state).1.stdout.toList ↔ r.extensions = []
  reports : ∀ json, ({ i with json := json }.run disk directory state).1.Reports json r
  elsewhere : ∀ path, disk.readText path last = disk.readText i.config last →
    { i with config := path }.run disk directory state = i.run disk directory state

theorem tells_of_accepts {disk : Disk (Library.Image κ) δ} (directory : Option Path)
    {i : Invocation} {state last : δ} {c : Config} (h : i.Accepts disk state last c) :
    i.Tells disk directory state last c (c.attempt disk last directory).found
      (.ofDiscovery (c.attempt disk last directory).found) where
  result := (c.followsAnswers_attempt disk last directory).result
  contents := c.shows_attempt disk last directory
  notice _ := Report.notice_mem_iff
  noticeFirst :=
    Report.notice_isPrefix_iff ((reports_of_accepts (h.inForm false)
      (c.followsAnswers_attempt disk last directory).result).text rfl)
  reports json :=
    reports_of_accepts (h.inForm json) (c.followsAnswers_attempt disk last directory).result
  elsewhere path hpath := by
    rw [run_of_accepts h, run_of_accepts (h.elsewhere hpath)]
    rfl

/-- **What a run comes to.** It succeeds exactly when its journal starts, its configuration is
accepted and the attempt on the host that searches directories leaves no diagnostic. When the
configuration is not accepted, it fails and prints nothing. When it is, the attempt follows what
names lead to from the working directory, and the run tells of it, in either form and wherever the
configuration lies. Every run is one of the program. -/
theorem outcome_of_run (disk : Disk (Library.Image κ) δ) (directory : Option Path) (i : Invocation)
    (state : δ) :
    ((i.run disk directory state).1.exit = 0 ↔ ∃ last c d, i.Accepts disk state last c ∧
      (c.attempt disk last directory).result = .ok d ∧ d.diagnostics = []) ∧
    ((∀ last c, ¬i.Accepts disk state last c) →
      (i.run disk directory state).1.exit = 1 ∧ (i.run disk directory state).1.stdout = "") ∧
    (∀ last c, i.Accepts disk state last c →
      Discovery.FollowsAnswers (Library.answers disk last c.dirs directory) c.extensions c.policy
        (c.attempt disk last directory) ∧
      ∃ d r, i.Tells disk directory state last c d r) ∧
    (i.config.text ≠ "" →
      runProgram disk directory i.arguments state = i.run disk directory state) := by
  refine ⟨?_, run_of_not_accepts, fun last c h => ?_, fun hpath => ?_⟩
  · constructor
    · intro hexit
      by_cases h : ∃ last c, i.Accepts disk state last c
      · obtain ⟨last, c, h⟩ := h
        have hd := (c.followsAnswers_attempt disk last directory).result
        exact ⟨last, c, _, h, hd, (reports_of_accepts h hd).exit_eq_zero_iff.mp hexit⟩
      · push Not at h
        rw [(run_of_not_accepts h).1] at hexit
        cases hexit
    · rintro ⟨last, c, d, h, hd, hnone⟩
      exact (reports_of_accepts h hd).exit_eq_zero_iff.mpr hnone
  · exact ⟨c.followsAnswers_attempt disk last directory, _, _, tells_of_accepts directory h⟩
  · rw [runProgram, Request.ofArguments_arguments hpath]

/-- A tree with a configuration in one place and a library in another. -/
def sharedTree : FileTree (Library.Image Unit) := .directory [
  ("etc", .directory [("lint.json", .file "\x7b\"extensions\": [\"lint\"]\x7d".toUTF8)]),
  ("work", .directory [("lint_extensions", .directory [("liblint.so", .image (.ofExports ⟨[
    ("default", .constructible (some (.string "syntactic-lint")) ()),
    ("style", .data (some (.string "formatter")) .null)]⟩))])])]

/-- A run with that configuration and a journal. -/
def sharedRun : Invocation := ⟨⟨"/etc/lint.json"⟩, false, some " /log ", some "Warning"⟩

theorem outcome_of_sharedRun :
    (sharedRun.run (FileTree.disk ["work"]) (some ⟨"/work"⟩) sharedTree).1.exit = 0 ∧
      ∃ last c d r, sharedRun.Accepts (FileTree.disk ["work"]) sharedTree last c ∧
        sharedRun.Tells (FileTree.disk ["work"]) (some ⟨"/work"⟩) sharedTree last c d r := by
  have hexit : (sharedRun.run (FileTree.disk ["work"]) (some ⟨"/work"⟩) sharedTree).1.exit = 0 := by
    decide +kernel
  obtain ⟨hsuccess, -, htells, -⟩ :=
    outcome_of_run (FileTree.disk ["work"]) (some ⟨"/work"⟩) sharedRun sharedTree
  obtain ⟨last, c, -, haccepts, -, -⟩ := hsuccess.mp hexit
  obtain ⟨-, d, r, hr⟩ := htells last c haccepts
  exact ⟨hexit, last, c, d, r, haccepts, hr⟩

example : (sharedRun.run (FileTree.disk ["work"]) (some ⟨"/work"⟩) sharedTree).1.stdout =
    "lintkit 0.1.0\n  [formatter] lint[style] (opaque)\n  [syntactic-lint] lint (walker)\n" := by
  decide +kernel

end Invocation

end LintDiscovery
