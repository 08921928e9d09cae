/-
A journal is set up once and for all.

Requests to set up a journal are followed as a machine with two kinds of states. While no journal is
active, a request is faulty, or its directory cannot be made, or it gets through; only the last
makes a difference, and it makes one for good. From then on nothing changes any more, and requests
are only told whether they ask for what there is. A faulty request is refused by the same answer in
every state.

What a request asks for is said without its normal forms: its level is spelled in any case of the
letters and between any blanks, its directory is compared by its components.

* `JournalRequest.Asks`, `JournalRequest.Faulty` — what a request asks for, or what is wrong with it;
* `Journal.Answered`, `answered_iff` — one request, as a step;
* `Journal.Answers`, `answers_iff` — requests in sequence, as a run;
* `Journal.Idle`, `Journal.Served` — requests before and after the one that gets through;
* `activations_of_requests` — all of it together.
-/
import LintDiscovery.File.Disk
import LintDiscovery.Journal.Setup
import Mathlib.Data.List.Forall2

namespace LintDiscovery

/-! ### What a request asks for -/

/-- Two texts are the same but for the case of their ASCII letters. -/
def Text.SameLetters (s t : String) : Prop :=
  s.toList.map Char.toLower = t.toList.map Char.toLower

namespace Level

/-- The names of a level. -/
def names : Level → List String
  | warn => ["warn", "warning"]
  | l => [l.name]

/-- A text spells a level: between blanks, and in any case of the letters. -/
def Spelled (text : String) (l : Level) : Prop :=
  ∃ name ∈ l.names, Text.SameLetters (Text.trim text) name

theorem ofName?_eq_some_iff (name : String) (l : Level) :
    ofName? name = some l ↔ name ∈ l.names := by
  constructor
  · intro h
    rw [ofName?] at h
    split_ifs at h <;> cases h <;> simp_all [names, Level.name]
  · cases l <;> simp only [names, Level.name, List.mem_cons, List.not_mem_nil, or_false]
    case warn => rintro (rfl | rfl) <;> rfl
    all_goals rintro rfl; rfl

/-- Names are in lower case. -/
theorem map_toLower_of_mem_names {name : String} {l : Level} (h : name ∈ l.names) :
    name.toList.map Char.toLower = name.toList := by
  cases l <;> simp only [names, Level.name, List.mem_cons, List.not_mem_nil, or_false] at h
  case warn => rcases h with rfl | rfl <;> rfl
  all_goals subst h; rfl

theorem ofName?_normalized_iff (text : String) (l : Level) :
    ofName? (normalized text) = some l ↔ Spelled text l := by
  rw [ofName?_eq_some_iff]
  constructor
  · intro h
    refine ⟨normalized text, h, ?_⟩
    have hlower := map_toLower_of_mem_names h
    rw [Text.SameLetters, hlower, normalized, Text.lowerAscii, String.toList_ofList]
  · rintro ⟨name, hname, hsame⟩
    rw [Text.SameLetters, map_toLower_of_mem_names hname] at hsame
    have heq : normalized text = name := by
      rw [normalized, Text.lowerAscii, hsame, String.ofList_toList]
    exact heq ▸ hname

end Level

namespace JournalRequest

/-- A request asks for a journal: its level is spelled, and its directory is absolute once it is
trimmed. -/
structure Asks (r : JournalRequest) (j : Journal) : Prop where
  level : Level.Spelled r.level j.level
  dir : j.dir = ⟨Text.trim r.dir⟩
  absolute : j.dir.isAbsolute = true

/-- What is wrong with a request. The directory is no matter where the level is wrong. -/
inductive Faulty (r : JournalRequest) : JournalError → Prop
  | unknownLevel (h : ∀ l, ¬Level.Spelled r.level l) :
      Faulty r (.unknownLevel (Level.normalized r.level))
  | emptyDir {l : Level} (hl : Level.Spelled r.level l) (h : Text.trim r.dir = "") :
      Faulty r .emptyDir
  | relativeDir {l : Level} (hl : Level.Spelled r.level l) (hne : Text.trim r.dir ≠ "")
      (h : (Path.mk (Text.trim r.dir)).isAbsolute = false) :
      Faulty r (.relativeDir (Text.trim r.dir))

end JournalRequest

/-- There is nothing between the two. -/
theorem JournalRequest.asks_or_faulty (r : JournalRequest) :
    (∃ j, r.Asks j) ∨ ∃ e, r.Faulty e := by
  by_cases hlevel : ∃ l, Level.Spelled r.level l
  · obtain ⟨l, hl⟩ := hlevel
    by_cases hempty : Text.trim r.dir = ""
    · exact .inr ⟨_, .emptyDir hl hempty⟩
    rcases habs : (Path.mk (Text.trim r.dir)).isAbsolute with _ | _
    · exact .inr ⟨_, .relativeDir hl hempty habs⟩
    · exact .inl ⟨⟨l, ⟨Text.trim r.dir⟩⟩, hl, rfl, habs⟩
  · exact .inr ⟨_, .unknownLevel fun l hl => hlevel ⟨l, hl⟩⟩

namespace Journal

theorem requestLevel_of_spelled {text : String} {l : Level} (hl : Level.Spelled text l) :
    requestLevel text = .ok l := by
  rw [requestLevel, (Level.ofName?_normalized_iff text l).mpr hl]

theorem requestLevel_of_not_spelled {text : String} (hl : ∀ l, ¬Level.Spelled text l) :
    requestLevel text = .error (.unknownLevel (Level.normalized text)) := by
  rcases h : Level.ofName? (Level.normalized text) with _ | l
  · rw [requestLevel, h]
  · exact absurd ((Level.ofName?_normalized_iff text l).mp h) (hl l)

theorem request_of_asks {r : JournalRequest} {j : Journal} (hr : r.Asks j) :
    request r.level r.dir = .ok j := by
  obtain ⟨l, dir⟩ := j
  obtain ⟨hlevel, rfl, habs⟩ := hr
  have hempty : Text.trim r.dir ≠ "" := by
    intro h
    rw [h] at habs
    cases habs
  simp only [request, requestLevel_of_spelled hlevel, requestDir, if_neg hempty, habs]
  rfl

theorem request_of_faulty {r : JournalRequest} {e : JournalError} (hr : r.Faulty e) :
    request r.level r.dir = .error e := by
  cases hr with
  | unknownLevel hl =>
    rw [request, requestLevel_of_not_spelled hl]
    rfl
  | emptyDir hl hempty =>
    simp only [request, requestLevel_of_spelled hl, requestDir, if_pos hempty]
    rfl
  | relativeDir hl hempty habs =>
    simp only [request, requestLevel_of_spelled hl, requestDir, if_neg hempty, habs]
    rfl

/-! ### One request -/

variable {δ : Type} {make : Path → δ → Except FileError Unit × δ}

/-- A request in a state and what comes of it. A faulty one leaves everything as it is, and so does
every other while a journal is active; the directories are compared before the levels. -/
inductive Answered (make : Path → δ → Except FileError Unit × δ) (r : JournalRequest) :
    Option Journal → δ → Activation δ → Prop
  | faulty {e : JournalError} (hr : r.Faulty e) (active : Option Journal) (disk : δ) :
      Answered make r active disk ⟨.error e, active, disk, []⟩
  | cannotMakeDir {k : Journal} {e : FileError} {disk disk' : δ} (hr : r.Asks k)
      (hmake : make k.dir disk = (.error e, disk')) :
      Answered make r none disk ⟨.error (.cannotMakeDir k.dir e), none, disk', []⟩
  | started {k : Journal} {disk disk' : δ} (hr : r.Asks k)
      (hmake : make k.dir disk = (.ok (), disk')) :
      Answered make r none disk
        ⟨.ok (), some k, disk', [.journalStarted k.level k.dir version]⟩
  | agreed {j k : Journal} (hr : r.Asks k) (hdir : k.dir.components = j.dir.components)
      (hlevel : k.level = j.level) (disk : δ) :
      Answered make r (some j) disk ⟨.ok (), some j, disk, []⟩
  | otherDir {j k : Journal} (hr : r.Asks k) (hdir : k.dir.components ≠ j.dir.components)
      (disk : δ) :
      Answered make r (some j) disk ⟨.error (.otherDir j.dir k.dir), some j, disk, []⟩
  | otherLevel {j k : Journal} (hr : r.Asks k) (hdir : k.dir.components = j.dir.components)
      (hlevel : k.level ≠ j.level) (disk : δ) :
      Answered make r (some j) disk ⟨.error (.otherLevel j.level k.level), some j, disk, []⟩

theorem agree_of_same {j k : Journal} (hdir : k.dir.components = j.dir.components)
    (hlevel : k.level = j.level) : agree j k = .ok () := by
  simp [agree, Path.same, hdir, hlevel]

theorem agree_of_otherDir {j k : Journal} (hdir : k.dir.components ≠ j.dir.components) :
    agree j k = .error (.otherDir j.dir k.dir) := by
  simp [agree, Path.same, hdir.symm]

theorem agree_of_otherLevel {j k : Journal} (hdir : k.dir.components = j.dir.components)
    (hlevel : k.level ≠ j.level) : agree j k = .error (.otherLevel j.level k.level) := by
  simp [agree, Path.same, hdir, hlevel.symm]

theorem activate_of_answered {r : JournalRequest} {active : Option Journal} {disk : δ}
    {a : Activation δ} (ha : Answered make r active disk a) :
    activate make true r.level r.dir active disk = a := by
  cases ha with
  | faulty hr => rw [activate, request_of_faulty hr]
  | cannotMakeDir hr hmake => simp only [activate, request_of_asks hr, start, hmake]
  | started hr hmake => simp only [activate, request_of_asks hr, start, hmake, if_true]
  | agreed hr hdir hlevel => simp only [activate, request_of_asks hr, agree_of_same hdir hlevel]
  | otherDir hr hdir => simp only [activate, request_of_asks hr, agree_of_otherDir hdir]
  | otherLevel hr hdir hlevel =>
    simp only [activate, request_of_asks hr, agree_of_otherLevel hdir hlevel]

/-- Every request has an answer in every state. -/
theorem exists_answered (make : Path → δ → Except FileError Unit × δ) (r : JournalRequest)
    (active : Option Journal) (disk : δ) : ∃ a, Answered make r active disk a := by
  rcases r.asks_or_faulty with ⟨k, hr⟩ | ⟨e, hr⟩
  · cases active with
    | none =>
      rcases hmake : make k.dir disk with ⟨e | ⟨⟩, disk'⟩
      · exact ⟨_, .cannotMakeDir hr hmake⟩
      · exact ⟨_, .started hr hmake⟩
    | some j =>
      by_cases hdir : k.dir.components = j.dir.components
      · by_cases hlevel : k.level = j.level
        · exact ⟨_, .agreed hr hdir hlevel disk⟩
        · exact ⟨_, .otherLevel hr hdir hlevel disk⟩
      · exact ⟨_, .otherDir hr hdir disk⟩
  · exact ⟨_, .faulty hr active disk⟩

/-- The answers are those that requests are given, and no others. -/
theorem answered_iff {r : JournalRequest} {active : Option Journal} {disk : δ}
    {a : Activation δ} :
    Answered make r active disk a ↔ activate make true r.level r.dir active disk = a := by
  refine ⟨activate_of_answered, ?_⟩
  rintro rfl
  obtain ⟨a, ha⟩ := exists_answered make r active disk
  rw [activate_of_answered ha]
  exact ha

/-! ### Requests in sequence -/

/-- Requests one after the other, each in the state that the one before it left. -/
inductive Answers (make : Path → δ → Except FileError Unit × δ) :
    Option Journal → δ → List JournalRequest → List (Activation δ) → Prop
  | nil (active : Option Journal) (disk : δ) : Answers make active disk [] []
  | cons {r : JournalRequest} {rest : List JournalRequest} {active : Option Journal} {disk : δ}
      {a : Activation δ} {as : List (Activation δ)} (hstep : Answered make r active disk a)
      (hrest : Answers make a.active a.disk rest as) :
      Answers make active disk (r :: rest) (a :: as)

theorem answers_iff {active : Option Journal} {disk : δ} {rs : List JournalRequest}
    {as : List (Activation δ)} :
    Answers make active disk rs as ↔ activateAll make true rs active disk = as := by
  constructor
  · intro h
    induction h with
    | nil => rfl
    | cons hstep _ ih => rw [activateAll, answered_iff.mp hstep, ih]
  · rintro rfl
    induction rs generalizing active disk with
    | nil => exact .nil active disk
    | cons r rest ih => exact .cons (answered_iff.mpr rfl) ih

/-- What a request is told by an active journal: it succeeds exactly when it asks for the same, and
learns of another directory rather than of another level. -/
structure Served (j : Journal) (r : JournalRequest) (result : Except JournalError Unit) : Prop where
  faulty : ∀ e, r.Faulty e → result = .error e
  agreed : result = .ok () ↔
    ∃ k, r.Asks k ∧ k.level = j.level ∧ k.dir.components = j.dir.components
  otherDir : ∀ k, r.Asks k → k.dir.components ≠ j.dir.components →
    result = .error (.otherDir j.dir k.dir)
  otherLevel : ∀ k, r.Asks k → k.dir.components = j.dir.components → k.level ≠ j.level →
    result = .error (.otherLevel j.level k.level)

theorem Answered.unique {r : JournalRequest} {active : Option Journal} {disk : δ}
    {a b : Activation δ} (ha : Answered make r active disk a)
    (hb : Answered make r active disk b) : a = b :=
  (answered_iff.mp ha).symm.trans (answered_iff.mp hb)

theorem Answered.served {j : Journal} {r : JournalRequest} {disk : δ} {a : Activation δ}
    (ha : Answered make r (some j) disk a) : Served j r a.result where
  faulty e hr := by rw [ha.unique (.faulty hr _ disk)]
  agreed := by
    constructor
    · intro hok
      cases ha with
      | agreed hr hdir hlevel => exact ⟨_, hr, hlevel, hdir⟩
      | _ => cases hok
    · rintro ⟨k, hr, hlevel, hdir⟩
      rw [ha.unique (.agreed hr hdir hlevel disk)]
  otherDir k hr hdir := by rw [ha.unique (.otherDir hr hdir disk)]
  otherLevel k hr hdir hlevel := by rw [ha.unique (.otherLevel hr hdir hlevel disk)]

/-- An active journal stays, and no request touches the disk. -/
theorem Answered.unchanged {j : Journal} {r : JournalRequest} {disk : δ} {a : Activation δ}
    (ha : Answered make r (some j) disk a) :
    a.active = some j ∧ a.disk = disk ∧ a.events = [] := by
  cases ha <;> exact ⟨rfl, rfl, rfl⟩

/-- Requests that are served by a journal, on a disk that stays as it is. -/
def AllServed (j : Journal) (disk : δ) : List JournalRequest → List (Activation δ) → Prop :=
  List.Forall₂ fun r a => Served j r a.result ∧ a.active = some j ∧ a.disk = disk ∧ a.events = []

theorem Answers.allServed {j : Journal} {disk : δ} {rs : List JournalRequest}
    {as : List (Activation δ)} (h : Answers make (some j) disk rs as) : AllServed j disk rs as := by
  induction rs generalizing as with
  | nil =>
    cases h
    exact .nil
  | cons r rest ih =>
    cases h with
    | cons hstep hrest =>
      obtain ⟨hactive, hdisk, hevents⟩ := hstep.unchanged
      rw [hactive, hdisk] at hrest
      exact .cons ⟨hstep.served, hactive, hdisk, hevents⟩ (ih hrest)

/-- Requests of which none gets through, with the disk that they start from and the one that they
leave. Only attempts to make a directory may leave their marks on it. -/
inductive Idle (make : Path → δ → Except FileError Unit × δ) :
    δ → List JournalRequest → List (Activation δ) → δ → Prop
  | nil (disk : δ) : Idle make disk [] [] disk
  | faulty {r : JournalRequest} {rest : List JournalRequest} {e : JournalError} {disk last : δ}
      {as : List (Activation δ)} (hr : r.Faulty e) (hrest : Idle make disk rest as last) :
      Idle make disk (r :: rest) (⟨.error e, none, disk, []⟩ :: as) last
  | cannotMakeDir {r : JournalRequest} {rest : List JournalRequest} {k : Journal} {e : FileError}
      {disk disk' last : δ} {as : List (Activation δ)} (hr : r.Asks k)
      (hmake : make k.dir disk = (.error e, disk')) (hrest : Idle make disk' rest as last) :
      Idle make disk (r :: rest) (⟨.error (.cannotMakeDir k.dir e), none, disk', []⟩ :: as) last

/-- Requests of which one gets through. None before it does; the journal that it asks for is set up,
and serves the requests behind it. -/
inductive SetUp (make : Path → δ → Except FileError Unit × δ) (disk : δ) :
    List JournalRequest → List (Activation δ) → Journal → Prop
  | intro {before after : List JournalRequest} {r : JournalRequest}
      {idle served : List (Activation δ)} {j : Journal} {disk' disk'' : δ}
      (hidle : Idle make disk before idle disk') (hr : r.Asks j)
      (hmake : make j.dir disk' = (.ok (), disk'')) (hserved : AllServed j disk'' after served) :
      SetUp make disk (before ++ r :: after)
        (idle ++ ⟨.ok (), some j, disk'', [.journalStarted j.level j.dir version]⟩ :: served) j

theorem Answers.idle_or_setUp {disk : δ} {rs : List JournalRequest} {as : List (Activation δ)}
    (h : Answers make none disk rs as) :
    (∃ last, Idle make disk rs as last) ∨ ∃ j, SetUp make disk rs as j := by
  induction rs generalizing disk as with
  | nil =>
    cases h
    exact .inl ⟨disk, .nil disk⟩
  | cons r rest ih =>
    cases h with
    | cons hstep hrest =>
      -- a request that gets through ends the search; the others are put in front of what follows
      cases hstep with
      | faulty hr =>
        rcases ih hrest with ⟨last, hidle⟩ | ⟨j, ⟨hidle, hasks, hmake, hserved⟩⟩
        · exact .inl ⟨last, .faulty hr hidle⟩
        · exact .inr ⟨j, .intro (.faulty hr hidle) hasks hmake hserved⟩
      | cannotMakeDir hr hfail =>
        rcases ih hrest with ⟨last, hidle⟩ | ⟨j, ⟨hidle, hasks, hmake, hserved⟩⟩
        · exact .inl ⟨last, .cannotMakeDir hr hfail hidle⟩
        · exact .inr ⟨j, .intro (.cannotMakeDir hr hfail hidle) hasks hmake hserved⟩
      | started hr hmake => exact .inr ⟨_, .intro (.nil disk) hr hmake hrest.allServed⟩

/-- Idle requests leave room for any others. -/
theorem activateAll_append_of_idle {disk last : δ} {rs : List JournalRequest}
    {as : List (Activation δ)} (h : Idle make disk rs as last) (rest : List JournalRequest) :
    activateAll make true (rs ++ rest) none disk =
      as ++ activateAll make true rest none last := by
  induction h with
  | nil => rfl
  | faulty hr _ ih =>
    rw [List.cons_append, activateAll, activate_of_answered (.faulty hr none _), ih]
    rfl
  | cannotMakeDir hr hmake _ ih =>
    rw [List.cons_append, activateAll, activate_of_answered (.cannotMakeDir hr hmake), ih]
    rfl

/-- **A journal is set up once and for all.** Whatever requests are made, none gets through, or one
does and those behind it are served by the journal it asks for, on a disk that they leave alone. A
faulty request is refused in every state. As long as none got through, any request can whose
directory can be made. -/
theorem activations_of_requests (make : Path → δ → Except FileError Unit × δ) (disk : δ)
    (rs : List JournalRequest) :
    let as := activateAll make true rs none disk
    Answers make none disk rs as ∧
      ((∃ last, Idle make disk rs as last) ∨ ∃ j, SetUp make disk rs as j) ∧
      (∀ (r : JournalRequest) e, r.Faulty e → ∀ active (state : δ),
        activate make true r.level r.dir active state = ⟨.error e, active, state, []⟩) ∧
      ∀ last, Idle make disk rs as last → ∀ (r : JournalRequest) j disk', r.Asks j →
        make j.dir last = (.ok (), disk') → ∀ after,
          activateAll make true (rs ++ r :: after) none disk =
            as ++ ⟨.ok (), some j, disk', [.journalStarted j.level j.dir version]⟩ ::
              activateAll make true after (some j) disk' := by
  intro as
  have hrun : Answers make none disk rs as := answers_iff.mpr rfl
  refine ⟨hrun, hrun.idle_or_setUp, ?_, ?_⟩
  · intro r e hr active state
    exact activate_of_answered (.faulty hr active state)
  · intro last hidle r j disk' hr hmake after
    rw [activateAll_append_of_idle hidle, activateAll,
      activate_of_answered (.started hr hmake)]

/-- A tree in which a name is taken, so that it cannot become a directory. -/
def takenTree : FileTree Unit := .directory [("taken", .image ())]

/-- Requests that come to nothing, each for another reason. -/
def futileRequests : List JournalRequest :=
  [⟨"verbose", ""⟩, ⟨"info", "log"⟩, ⟨"info", "/taken/log"⟩]

theorem activations_on_takenTree :
    let make := (FileTree.disk [] : Disk Unit (FileTree Unit)).makeDirectories
    (∃ last, Idle make takenTree futileRequests
      (activateAll make true futileRequests none takenTree) last) ∧
    ∃ disk', activateAll make true (futileRequests ++ ⟨" INFO ", "/log//"⟩ ::
        [⟨"info", "/log/./"⟩, ⟨"Warning", "/log"⟩, ⟨"warn", "/other"⟩]) none takenTree =
      activateAll make true futileRequests none takenTree ++
        [⟨.ok (), some ⟨.info, ⟨"/log//"⟩⟩, disk', [.journalStarted .info ⟨"/log//"⟩ version]⟩,
          ⟨.ok (), some ⟨.info, ⟨"/log//"⟩⟩, disk', []⟩,
          ⟨.error (.otherLevel .info .warn), some ⟨.info, ⟨"/log//"⟩⟩, disk', []⟩,
          ⟨.error (.otherDir ⟨"/log//"⟩ ⟨"/other"⟩), some ⟨.info, ⟨"/log//"⟩⟩, disk', []⟩] := by
  intro make
  have hinfo : Level.Spelled "info" .info := (Level.ofName?_normalized_iff _ _).mp (by decide)
  have hverbose : ∀ l, ¬Level.Spelled "verbose" l := by
    intro l hl
    have hname := (Level.ofName?_normalized_iff _ _).mpr hl
    rw [show Level.ofName? (Level.normalized "verbose") = none by decide] at hname
    cases hname
  have hidle : Idle make takenTree futileRequests
      (activateAll make true futileRequests none takenTree) _ :=
    .faulty (.unknownLevel hverbose)
      (.faulty (.relativeDir hinfo (by decide) (by decide))
        (.cannotMakeDir (k := ⟨.info, ⟨"/taken/log"⟩⟩) ⟨hinfo, by decide, by decide⟩ rfl (.nil _)))
  have hasks : JournalRequest.Asks ⟨" INFO ", "/log//"⟩ ⟨.info, ⟨"/log//"⟩⟩ :=
    ⟨(Level.ofName?_normalized_iff _ _).mp (by decide), by decide, by decide⟩
  obtain ⟨-, -, -, hlater⟩ := activations_of_requests make takenTree futileRequests
  exact ⟨⟨_, hidle⟩, _, hlater _ hidle _ _ _ hasks rfl _⟩

end Journal

end LintDiscovery
