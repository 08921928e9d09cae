/-
Which records of discovery are one line.

A record is to be one line. The detail of a failure to load is made fit for that before it is
written; all other values are written as they are, so a line break in one of them breaks the record
and may make it look like two.

* `Text.IsOneLine`, `isOneLine_oneLine` — texts without line breaks, and what makes them so;
* `Event.written`, `isOneLine_record_iff` — the values that a record shows as they are;
* `Attempt.ShowsLines`, `records_isOneLine_iff` — the records of an attempt are one line each
  exactly when the names, paths, error texts, keys and tags they show are;
* `not_isOneLine_record` — a name with a line break that is not found is enough.
-/
import LintDiscovery.Proofs.JournalAgreement

namespace LintDiscovery

/-! ### Texts on one line -/

namespace Text

/-- A text without line breaks. -/
def IsOneLine (s : String) : Prop :=
  ∀ c ∈ s.toList, isLineBreak c = false

instance : DecidablePred IsOneLine :=
  fun s => decidable_of_iff (s.toList.all (fun c => !isLineBreak c) = true) (by simp [IsOneLine])

@[simp] theorem isOneLine_append (s t : String) :
    IsOneLine (s ++ t) ↔ IsOneLine s ∧ IsOneLine t := by
  simp only [IsOneLine, String.toList_append, List.mem_append, or_imp, forall_and]

@[simp] theorem isOneLine_toString (n : Nat) : IsOneLine (toString n) := by
  intro c hc
  have hdigit : c.isDigit = true := by
    rw [Nat.toString_eq_repr, Nat.toList_repr] at hc
    exact Nat.isDigit_of_mem_toDigits (by omega) (by omega) hc
  -- no digit ends a line
  have hbreaks : ∀ x ∈ ['\n', '\r'], x.isDigit = false := by simp [Char.isDigit]
  have hne : c ∉ ['\n', '\r'] := by
    intro hmem
    rw [hbreaks c hmem] at hdigit
    cases hdigit
  simpa [isLineBreak] using hne

/-- A literal is decided by its characters. -/
theorem isOneLine_ofList {cs : List Char} (h : cs.all (fun c => !isLineBreak c) = true) :
    IsOneLine (String.ofList cs) := by
  simpa [IsOneLine] using h

theorem isOneLine_iff_true {s : String} (h : IsOneLine s) : IsOneLine s ↔ True :=
  iff_true_intro h

/-- What is made fit for one line is on one line. -/
theorem isOneLine_oneLine (limit : Nat) (s : String) : IsOneLine (oneLine limit s) := by
  have hunbroken : ∀ c ∈ unbroken s.toList, isLineBreak c = false := by
    intro c hc
    obtain ⟨x, -, rfl⟩ := List.mem_map.mp hc
    split
    · rfl
    · rename_i hx
      simpa using hx
  intro c hc
  rw [oneLine, String.toList_ofList, clipped] at hc
  split at hc
  · exact hunbroken c hc
  · rcases List.mem_append.mp hc with hc | hc
    · exact hunbroken c (List.mem_of_mem_take hc)
    · have hdots : ∀ x ∈ ['.', '.', '.'], isLineBreak x = false := by simp [isLineBreak]
      exact hdots c hc

end Text

open Text (IsOneLine)

/-! ### Records -/

namespace Event

/-- The values that the text of an event shows as they are. -/
def written : Event → List String
  | discoveryStarted _ | discoveryFinished _ _ _ | discoveryReported _ _ => []
  | nameResolved name path => [name, path.text]
  | nameUnresolved name error => [name, error.text]
  | loaderUnavailable name | moduleLoaded name _ | loadFailed name _ => [name]
  | libraryOpened path _ => [path.text]
  | exportAccepted name kind | exportUnsupported name kind => [name, kind]
  | exportMistyped name kind actual => [name, kind, actual]
  | journalStarted _ dir version => [dir.text, version]
  | panicCaptured location _ => [location]

theorem isOneLine_label (l : Level) : IsOneLine l.label := by
  cases l <;> exact Text.isOneLine_ofList rfl

theorem isOneLine_levelName (l : Level) : IsOneLine l.name := by
  cases l <;> exact Text.isOneLine_ofList rfl

theorem isOneLine_text_iff (ms : Nat) (e : Event) :
    IsOneLine (e.text (toString ms)) ↔ ∀ v ∈ e.written, IsOneLine v := by
  -- the text is opened as it stands, since its equations would have the literals evaluated
  delta text
  split
  all_goals
    simp only [written, Text.isOneLine_append, Text.isOneLine_toString, Text.isOneLine_oneLine,
      isOneLine_levelName]
  -- what is left besides the values are literals
  all_goals
    simp (disch := exact Text.isOneLine_ofList rfl) [Text.isOneLine_iff_true, and_assoc]

/-- A record is one line exactly when the values are that it shows as they are. -/
theorem isOneLine_record_iff (ms : Nat) (e : Event) :
    IsOneLine (e.record (toString ms)) ↔ ∀ v ∈ e.written, IsOneLine v := by
  have hblank : IsOneLine " " := Text.isOneLine_ofList rfl
  simp only [record, Text.isOneLine_append, isOneLine_label, hblank, isOneLine_text_iff, true_and]

end Event

/-! ### Names on their way -/

variable {κ σ : Type}

/-- What the journal shows of the fate of a name. -/
def Fate.shown : Fate κ → String
  | .unresolved error => error.text
  | .withoutLoader path => path.text
  | .failed path _ _ => path.text
  | .loaded path _ _ => path.text

theorem LoadPhase.written_interruption_iff (i : Option Interruption) :
    (∀ e ∈ (i.map Interruption.events).getD [], ∀ v ∈ e.written, IsOneLine v) ↔
      ∀ name path p, i = some (.loaderQuery name path p) →
        IsOneLine name ∧ IsOneLine path.text := by
  rcases i with _ | p | ⟨name, p⟩ | ⟨name, path, p⟩ <;>
    simp [Interruption.events, Event.written]

theorem SettledName.written_iff (n : SettledName κ) :
    (∀ e ∈ n.muted.events, ∀ v ∈ e.written, IsOneLine v) ↔
      IsOneLine n.name ∧ IsOneLine n.fate.shown := by
  obtain ⟨name, error | path | ⟨path, logged, error⟩ | ⟨path, logged, exports⟩⟩ := n <;>
    simp [SettledName.muted, SettledName.events, Event.written, Fate.shown]
  all_goals tauto

/-! ### Exports -/

namespace Admission

theorem isOneLine_nameOf (module key : String) :
    IsOneLine (Descriptor.nameOf module key) ↔ IsOneLine module ∧ IsOneLine key := by
  have hopen : IsOneLine "[" := Text.isOneLine_ofList rfl
  have hclose : IsOneLine "]" := Text.isOneLine_ofList rfl
  unfold Descriptor.nameOf
  split
  · rename_i hkey
    have hdefault : IsOneLine key := by
      rw [hkey]
      exact Text.isOneLine_ofList rfl
    simp [hdefault]
  · simp [hopen, hclose]

theorem isOneLine_typeName (e : Export κ) : IsOneLine e.typeName := by
  cases e with
  | empty => exact Text.isOneLine_ofList rfl
  | constructible tag k => exact Text.isOneLine_ofList rfl
  | data tag v => cases v <;> exact Text.isOneLine_ofList rfl

/-- The journal shows the name and the tag of an export that has a tag, whatever is decided. -/
theorem written_judge_iff (policy : UnknownKindPolicy) (module : String) (args : Option Json)
    (entry : String × Export κ) :
    (∀ e ∈ (judge policy module args entry).event?, ∀ v ∈ e.written, IsOneLine v) ↔
      ∀ tag ∈ entry.2.kindTag?, IsOneLine module ∧ IsOneLine entry.1 ∧ IsOneLine tag := by
  obtain ⟨key, x⟩ := entry
  rcases hk : x.kindTag? with _ | tag
  · simp [judge, hk, Verdict.event?]
  rcases hp : payload? policy (Kind.ofTag tag) x with _ | payload
  · simp only [judge, hk, hp]
    split <;>
      simp [Verdict.event?, Event.written, TaggedExport.name, isOneLine_nameOf,
        isOneLine_typeName, and_assoc]
  · simp [judge, hk, hp, Verdict.event?, Event.written, Kind.tag_ofTag, isOneLine_nameOf,
      and_assoc]

end Admission

/-! ### Attempts -/

/-- What the journal shows of an attempt is on one line: the names that were settled or had a path
when they were interrupted, what it shows of their fates, and the keys and tags of exports. Details
of failures to load are not among this, and neither are panics. -/
structure Attempt.ShowsLines (a : Attempt κ) : Prop where
  settled : ∀ n ∈ a.phase.settled, IsOneLine n.name ∧ IsOneLine n.fate.shown
  interrupted : ∀ name path p, a.phase.interruption = some (.loaderQuery name path p) →
    IsOneLine name ∧ IsOneLine path.text
  exports : a.phase.interruption = none → ∀ m ∈ a.phase.modules, ∀ entry ∈ m.exports.entries,
    ∀ tag ∈ entry.2.kindTag?, IsOneLine entry.1 ∧ IsOneLine tag

theorem exists_settled_of_mem_modules {p : LoadPhase κ} {m : LoadedModule κ}
    (hm : m ∈ p.modules) : ∃ n ∈ p.settled, n.name = m.name := by
  obtain ⟨n, hn, hmodule⟩ := List.mem_filterMap.mp hm
  refine ⟨n, hn, ?_⟩
  obtain ⟨name, _ | _ | _ | _⟩ := n <;> cases hmodule
  rfl

namespace Discovery

theorem written_verdicts_iff {setting : ExtensionSetting} {policy : UnknownKindPolicy}
    {h : Host κ σ} {s : σ} :
    (∀ e ∈ (attempt setting policy h s).1.verdicts.filterMap Verdict.event?, ∀ v ∈ e.written,
        IsOneLine v) ↔
      ((attempt setting policy h s).1.phase.interruption = none →
        ∀ m ∈ (attempt setting policy h s).1.phase.modules, ∀ entry ∈ m.exports.entries,
          ∀ tag ∈ entry.2.kindTag?, IsOneLine m.name ∧ IsOneLine entry.1 ∧ IsOneLine tag) := by
  rcases hi : (attempt setting policy h s).1.phase.interruption with _ | i
  · rw [verdicts_attempt hi, Admission.judgeAll]
    simp only [List.mem_filterMap, List.mem_flatMap, Admission.judgeModule, List.mem_map]
    constructor
    · intro hall _ m hm entry hentry
      refine (Admission.written_judge_iff policy m.name (setting.args? m.name) entry).mp ?_
      intro e he
      exact hall e ⟨_, ⟨m, hm, entry, hentry, rfl⟩, he⟩
    · rintro hall e ⟨_, ⟨m, hm, entry, hentry, rfl⟩, he⟩
      exact (Admission.written_judge_iff policy m.name (setting.args? m.name) entry).mpr
        (hall trivial m hm entry hentry) e he
  · have hverdicts : (attempt setting policy h s).1.verdicts = [] := by
      show verdictsOf setting policy (attempt setting policy h s).1.phase = []
      rw [verdictsOf, hi]
    simp [hverdicts]

/-- **The records of an attempt are one line each exactly when what they show is.** It does not
matter how long anything took. -/
theorem records_isOneLine_iff (setting : ExtensionSetting) (policy : UnknownKindPolicy)
    (h : Host κ σ) (s : σ) :
    let a := (attempt setting policy h s).1
    (∀ e ∈ a.muted.events, ∀ ms : Nat, IsOneLine (e.record (toString ms))) ↔ a.ShowsLines := by
  intro a
  have hstart : ∀ v ∈ (Event.discoveryStarted a.configured).written, IsOneLine v := by
    simp [Event.written]
  have hclosing : ∀ e ∈ a.closing, ∀ v ∈ e.written, IsOneLine v := by
    unfold Attempt.closing
    split <;> simp [Event.written]
  have hevents : (∀ e ∈ a.muted.events, ∀ ms : Nat, IsOneLine (e.record (toString ms))) ↔
      (∀ n ∈ a.phase.settled, ∀ e ∈ n.muted.events, ∀ v ∈ e.written, IsOneLine v) ∧
        (∀ e ∈ (a.phase.interruption.map Interruption.events).getD [], ∀ v ∈ e.written,
          IsOneLine v) ∧
        ∀ e ∈ a.verdicts.filterMap Verdict.event?, ∀ v ∈ e.written, IsOneLine v := by
    simp only [Event.isOneLine_record_iff, forall_const, Attempt.events_muted,
      List.forall_mem_append, List.forall_mem_cons, List.forall_mem_flatMap, List.cons_append,
      and_assoc]
    constructor
    · rintro ⟨-, hsettled, hinterrupted, hexports, -⟩
      exact ⟨hsettled, hinterrupted, hexports⟩
    · rintro ⟨hsettled, hinterrupted, hexports⟩
      exact ⟨hstart, hsettled, hinterrupted, hexports, hclosing⟩
  rw [hevents, LoadPhase.written_interruption_iff, written_verdicts_iff]
  simp only [SettledName.written_iff]
  constructor
  · rintro ⟨hsettled, hinterrupted, hexports⟩
    refine ⟨hsettled, hinterrupted, ?_⟩
    intro hi m hm entry hentry tag htag
    exact (hexports hi m hm entry hentry tag htag).2
  · intro hshows
    refine ⟨hshows.settled, hshows.interrupted, ?_⟩
    intro hi m hm entry hentry tag htag
    -- a module has the name of the configured one that led to it
    obtain ⟨n, hn, hname⟩ := exists_settled_of_mem_modules hm
    exact ⟨hname ▸ (hshows.settled n hn).1, hshows.exports hi m hm entry hentry tag htag⟩

/-- A name with a line break that is not found breaks its record in two. -/
theorem not_isOneLine_record :
    ¬ ∀ e ∈ (attempt (.list ["a\nb"]) .passThrough (HostTable.host (κ := Unit)
        ⟨[], none, .present⟩) 0).1.muted.events,
      ∀ ms : Nat, IsOneLine (e.record (toString ms)) := by
  intro hall
  have hevent := hall (.nameUnresolved "a\nb" (.notFound "a\nb" [])) (by decide) 0
  rw [Event.isOneLine_record_iff] at hevent
  exact absurd (hevent "a\nb" (by decide)) (by decide)

example :
    (attempt (.list ["a\nb"]) .passThrough (HostTable.host (κ := Unit)
        ⟨[], none, .present⟩) 0).1.muted.events.map (Event.record "0") =
      ["INFO event=extension_discovery module=extension status=start configured=1",
        "WARN event=extension_resolve module=extension status=error name=a\nb " ++
          "error=extension `a\nb` not found (searched 0 paths)",
        "INFO event=extension_discovery module=extension status=ok modules=0 extensions=0 " ++
          "diagnostics=1 duration_ms=0"] := by
  decide

end Discovery

end LintDiscovery
