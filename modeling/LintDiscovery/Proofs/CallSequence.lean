/-
The calls that an attempt makes on its host, in their order.

An attempt asks for the working directory once and then takes the names one after the other: it
resolves the name, asks for a loader if there is a path, and loads that path if there is a loader. A
panic of the loader is an answer like any other. Every other panic is the last answer of the attempt,
whose calls end there.

The transcript of an attempt is followed name by name, through `Course` for a name that is settled
and through `CutOff` for the one at which a panic gets out; `CallsInTurn` puts these together.

* `CallsInTurn`, `CallsOfAttempt` — the calls that are due, up to the panic that gets out;
* `Turns.callsInTurn` — the transcript of names in sequence is of this form;
* `CallsInTurn.loads`, `CallsInTurn.queries` — what directly precedes a call;
* `Host.SeenThrough`, `Host.seenThrough_recorded` — a record of calls is a transcript without the
  answers;
* `calls_of_attempt` — the calls of an attempt.
-/
import LintDiscovery.Host.Recorded
import LintDiscovery.Proofs.ArgumentThreading
import LintDiscovery.Proofs.Containment

namespace LintDiscovery

variable {κ σ τ : Type}

/-- The call of an exchange, without the answer. -/
def Exchange.call : Exchange κ → HostCall
  | directory _ => .directory
  | resolve name file _ => .resolve name file
  | hasLoader _ => .hasLoader
  | load path _ => .load path

/-! ### The calls that are due -/

/-- What is asked of a host for a name at which a panic gets out; it is the last answer. -/
inductive CutOff (file : Path) (name : String) : List (Exchange κ) → Panic → Prop
  | resolver (p : Panic) : CutOff file name [.resolve name file (.error p)] p
  | loaderQuery (path : Path) (p : Panic) :
      CutOff file name [.resolve name file (.ok (.ok path)), .hasLoader (.error p)] p

/-- What is asked of a host for names in sequence, all of them against one file: the courses of the
names, up to the name at which a panic gets out. -/
inductive CallsInTurn (file : Path) : List String → List (Exchange κ) → Option Panic → Prop
  | nil : CallsInTurn file [] [] none
  | cons {name : String} {rest : List String} {u v : List (Exchange κ)}
      {module? : Option (LoadedModule κ)} {escape : Option Panic}
      (hcourse : Course file name u module?) (hrest : CallsInTurn file rest v escape) :
      CallsInTurn file (name :: rest) (u ++ v) escape
  | cut {name : String} {rest : List String} {u : List (Exchange κ)} {p : Panic}
      (hcut : CutOff file name u p) : CallsInTurn file (name :: rest) u (some p)

/-- What an attempt asks of a host: its directory, and then the names. -/
inductive CallsOfAttempt (names : List String) : List (Exchange κ) → Option Panic → Prop
  | directory (p : Panic) : CallsOfAttempt names [.directory (.error p)] (some p)
  | names {directory : Option Path} {u : List (Exchange κ)} {escape : Option Panic}
      (hcalls : CallsInTurn (containingFile directory) names u escape) :
      CallsOfAttempt names (.directory (.ok directory) :: u) escape

/-! ### Transcripts are of this form -/

namespace LoadPhase

/-- The turn of a name that is interrupted is cut off. -/
theorem Turn.cutOff {file : Path} {name : String} {u : List (Exchange κ)} {i : Interruption}
    (h : Turn file name u (.error i)) : CutOff file name u i.panic := by
  cases h with
  | resolverPanic p => exact .resolver p
  | queryPanic path p => exact .loaderQuery path p

theorem Turns.callsInTurn {file : Path} {names : List String} {u : List (Exchange κ)}
    {phase : LoadPhase κ} (h : Turns file names u phase) :
    CallsInTurn file names u (phase.interruption.map Interruption.panic) := by
  induction h with
  | nil => exact .nil
  | cons hturn _ ih => exact .cons hturn.course ih
  | cut hturn => exact .cut hturn.cutOff

theorem exists_callsOfAttempt_run (h : Host κ σ) (names : List String) (s : σ) :
    ∃ u, run h.transcribed names (s, []) = ((run h names s).1, ((run h names s).2, u)) ∧
      CallsOfAttempt names u ((run h names s).1.interruption.map Interruption.panic) := by
  obtain ⟨u, hu, hruns⟩ := exists_runs h names s
  refine ⟨u, hu.noted [], ?_⟩
  generalize (run h names s).1 = phase at hruns
  cases hruns with
  | directory p => exact .directory p
  | names hturns => exact .names hturns.callsInTurn

end LoadPhase

/-! ### What precedes a call -/

/-- The calls of one name, by the last of them, whatever its answer. -/
inductive Strand (file : Path) (name : String) : List (Exchange κ) → Prop
  | resolve (answer : Except Panic (Except ResolveError Path)) :
      Strand file name [.resolve name file answer]
  | hasLoader (path : Path) (answer : Except Panic Bool) :
      Strand file name [.resolve name file (.ok (.ok path)), .hasLoader answer]
  | load (path : Path) (answer : Except Panic (Loading κ)) :
      Strand file name [.resolve name file (.ok (.ok path)), .hasLoader (.ok true),
        .load path answer]

theorem Course.strand {file : Path} {name : String} {u : List (Exchange κ)}
    {module? : Option (LoadedModule κ)} (hcourse : Course file name u module?) :
    Strand file name u := by
  cases hcourse with
  | unresolved e => exact .resolve _
  | withoutLoader path => exact .hasLoader path _
  | panicked path p => exact .load path _
  | failed path events e => exact .load path _
  | loaded path events exports => exact .load path _

theorem CutOff.strand {file : Path} {name : String} {u : List (Exchange κ)} {p : Panic}
    (hcut : CutOff file name u p) : Strand file name u := by
  cases hcut with
  | resolver p => exact .resolve _
  | loaderQuery path p => exact .hasLoader path _

/-- A list of one item has no other in front of it or behind. -/
theorem eq_of_singleton_eq {α : Type} {a x : α} {before after : List α}
    (h : [a] = before ++ x :: after) : before = [] ∧ x = a ∧ after = [] := by
  rcases before with _ | ⟨y, before⟩
  · cases h
    exact ⟨rfl, rfl, rfl⟩
  · simp at h

/-- What directly precedes a call: nothing of its own a call to resolve, the path that was resolved a
question for a loader, and both the path and the loader that is there a call to load. -/
inductive Leads (file : Path) : List (Exchange κ) → Exchange κ → Prop
  | resolve (name : String) (answer : Except Panic (Except ResolveError Path)) :
      Leads file [] (.resolve name file answer)
  | hasLoader (name : String) (path : Path) (answer : Except Panic Bool) :
      Leads file [.resolve name file (.ok (.ok path))] (.hasLoader answer)
  | load (name : String) (path : Path) (answer : Except Panic (Loading κ)) :
      Leads file [.resolve name file (.ok (.ok path)), .hasLoader (.ok true)] (.load path answer)

theorem Strand.leads {file : Path} {name : String} {u before after : List (Exchange κ)}
    {x : Exchange κ} (hu : Strand file name u) (hx : u = before ++ x :: after) :
    Leads file before x := by
  cases hu with
  | resolve answer =>
    obtain ⟨rfl, rfl, -⟩ := eq_of_singleton_eq hx
    exact .resolve name answer
  | hasLoader path answer =>
    rcases before with _ | ⟨y, _ | ⟨z, before⟩⟩
    · cases hx
      exact .resolve name _
    · cases hx
      exact .hasLoader name path answer
    · simp at hx
  | load path answer =>
    rcases before with _ | ⟨y, _ | ⟨z, _ | ⟨w, before⟩⟩⟩
    · cases hx
      exact .resolve name _
    · cases hx
      exact .hasLoader name path _
    · cases hx
      exact .load name path answer
    · simp at hx

/-- No panic gets out of a course. -/
theorem Course.escape?_eq_none {file : Path} {name : String} {u : List (Exchange κ)}
    {module? : Option (LoadedModule κ)} (hcourse : Course file name u module?) :
    ∀ x ∈ u, x.escape? = none := by
  cases hcourse <;> simp [Exchange.escape?]

theorem CutOff.eq_nil_of_escape? {file : Path} {name : String} {u before after : List (Exchange κ)}
    {p q : Panic} {x : Exchange κ} (hcut : CutOff file name u p) (hx : u = before ++ x :: after)
    (hq : x.escape? = some q) : after = [] ∧ some p = some q := by
  cases hcut with
  | resolver p =>
    obtain ⟨-, rfl, rfl⟩ := eq_of_singleton_eq hx
    exact ⟨rfl, hq⟩
  | loaderQuery path p =>
    rcases before with _ | ⟨y, _ | ⟨z, before⟩⟩
    · cases hx
      cases hq
    · cases hx
      exact ⟨rfl, hq⟩
    · simp at hx

/-- What stands in an append stands in one of its parts. -/
theorem split_of_append_eq {α : Type} {u v before after : List α} {x : α}
    (h : u ++ v = before ++ x :: after) :
    (∃ mid, u = before ++ x :: mid) ∨ ∃ front, before = u ++ front ∧ v = front ++ x :: after := by
  rcases List.append_eq_append_iff.mp h with ⟨front, hbefore, hv⟩ | ⟨mid, hu, hafter⟩
  · exact .inr ⟨front, hbefore, hv⟩
  · cases mid with
    | nil => exact .inr ⟨[], by simpa using hu.symm, by simpa using hafter.symm⟩
    | cons y mid =>
      obtain ⟨rfl, -⟩ := List.cons.inj hafter
      exact .inl ⟨mid, hu⟩

namespace CallsInTurn

variable {file : Path} {names : List String} {u : List (Exchange κ)} {escape : Option Panic}

/-- Every call is directly preceded by what leads to it. -/
theorem exists_leads (hu : CallsInTurn file names u escape) {before after : List (Exchange κ)}
    {x : Exchange κ} (hx : u = before ++ x :: after) :
    ∃ front lead, before = front ++ lead ∧ Leads file lead x := by
  induction hu generalizing before with
  | nil => simp at hx
  | cons hcourse _ ih =>
    rcases split_of_append_eq hx with ⟨mid, hfirst⟩ | ⟨front, rfl, hrest⟩
    · exact ⟨[], before, rfl, hcourse.strand.leads hfirst⟩
    · obtain ⟨front', lead, rfl, hlead⟩ := ih hrest
      exact ⟨_ ++ front', lead, (List.append_assoc ..).symm, hlead⟩
  | cut hcut => exact ⟨[], before, rfl, hcut.strand.leads hx⟩

/-- The names are resolved once each, in their order and against the same file. -/
theorem exists_asked (hu : CallsInTurn file names u escape) :
    ∃ asked, asked <+: names ∧ (escape = none → asked = names) ∧
      (u.map Exchange.call).filterMap HostCall.resolution? = asked.map fun name => (name, file) := by
  have hstrand : ∀ {name : String} {u : List (Exchange κ)}, Strand file name u →
      (u.map Exchange.call).filterMap HostCall.resolution? = [(name, file)] := by
    rintro name u (_ | _ | _) <;> rfl
  induction hu with
  | nil => exact ⟨[], List.nil_prefix, fun _ => rfl, rfl⟩
  | @cons name rest _ _ _ _ hcourse _ ih =>
    obtain ⟨asked, hfirst, hall, hasked⟩ := ih
    refine ⟨name :: asked, List.cons_prefix_cons.mpr ⟨rfl, hfirst⟩, fun he => ?_, ?_⟩
    · rw [hall he]
    · rw [List.map_append, List.filterMap_append, hstrand hcourse.strand, hasked]
      rfl
  | @cut name rest _ _ hcut =>
    refine ⟨[name], List.cons_prefix_cons.mpr ⟨rfl, List.nil_prefix⟩, ?_, ?_⟩
    · rintro ⟨⟩
    · rw [hstrand hcut.strand]
      rfl

/-- A panic that gets out is the last answer. -/
theorem eq_nil_of_escape? (hu : CallsInTurn file names u escape) {before after : List (Exchange κ)}
    {x : Exchange κ} {p : Panic} (hx : u = before ++ x :: after) (hp : x.escape? = some p) :
    after = [] ∧ escape = some p := by
  induction hu generalizing before with
  | nil => simp at hx
  | cons hcourse _ ih =>
    rcases split_of_append_eq hx with ⟨mid, hfirst⟩ | ⟨front, -, hrest⟩
    · have hmem : x ∈ _ := hfirst ▸ List.mem_append_cons_self
      rw [hcourse.escape?_eq_none x hmem] at hp
      cases hp
    · exact ih hrest
  | cut hcut => exact hcut.eq_nil_of_escape? hx hp

end CallsInTurn

/-! ### Records of calls -/

/-- The second host answers like the first, in states that are those of the first seen through a
function. -/
structure Host.SeenThrough (f : σ → τ) (h : Host κ σ) (k : Host κ τ) : Prop where
  directory (s : σ) : k.directory (f s) = ((h.directory s).1, f (h.directory s).2)
  resolve (name : String) (file : Path) (s : σ) :
    k.resolve name file (f s) = ((h.resolve name file s).1, f (h.resolve name file s).2)
  hasLoader (s : σ) : k.hasLoader (f s) = ((h.hasLoader s).1, f (h.hasLoader s).2)
  load (path : Path) (s : σ) : k.load path (f s) = ((h.load path s).1, f (h.load path s).2)

/-- A record of calls is a transcript seen without the answers. -/
theorem Host.seenThrough_recorded (h : Host κ σ) :
    SeenThrough (fun s => (s.1, s.2.map Exchange.call)) h.transcribed h.recorded where
  directory s := by simp [recorded, noting, transcribed, transcribing, Exchange.call]
  resolve name file s := by simp [recorded, noting, transcribed, transcribing, Exchange.call]
  hasLoader s := by simp [recorded, noting, transcribed, transcribing, Exchange.call]
  load path s := by simp [recorded, noting, transcribed, transcribing, Exchange.call]

namespace LoadPhase

variable {f : σ → τ} {h : Host κ σ} {k : Host κ τ}

theorem settle_seenThrough (hf : Host.SeenThrough f h k) (file : Path) (name : String) (s : σ) :
    settle k file name (f s) = ((settle h file name s).1, f (settle h file name s).2) := by
  rcases hr : h.resolve name file s with ⟨p | e | path, s₁⟩
  · simp [settle, hf.resolve, hr]
  · simp [settle, hf.resolve, hr]
  rcases hq : h.hasLoader s₁ with ⟨p | _ | _, s₂⟩
  · simp [settle, hf.resolve, hf.hasLoader, hr, hq]
  · simp [settle, hf.resolve, hf.hasLoader, hr, hq]
  · simp [settle, hf.resolve, hf.hasLoader, hf.load, hr, hq]

theorem settleAll_seenThrough (hf : Host.SeenThrough f h k) (file : Path) (names : List String)
    (s : σ) :
    settleAll k file names (f s) = ((settleAll h file names s).1, f (settleAll h file names s).2) := by
  induction names generalizing s with
  | nil => rfl
  | cons name rest ih =>
    have hname := settle_seenThrough hf file name s
    rcases hs : settle h file name s with ⟨i | fate, s₁⟩
    · simp [settleAll, hname, hs]
    · simp [settleAll, hname, hs, ih]

theorem run_seenThrough (hf : Host.SeenThrough f h k) (names : List String) (s : σ) :
    run k names (f s) = ((run h names s).1, f (run h names s).2) := by
  rcases hd : h.directory s with ⟨p | directory, s₁⟩
  · simp [run, hf.directory, hd]
  · simp [run, hf.directory, hd, settleAll_seenThrough hf]

end LoadPhase

/-! ### An attempt -/

/-- What the calls of an attempt have in common, up to a panic that gets out: the directory is asked
for once, and first; the names are resolved once each, in their order and against one file; every
other call is directly preceded by what leads to it; and nothing comes behind the panic. -/
structure CallsKeepOrder (file : Path) (names : List String) (transcript : List (Exchange κ))
    (escape : Option Panic) : Prop where
  directory : (transcript.map Exchange.call).count .directory = 1
  resolved : ∃ asked, asked <+: names ∧ (escape = none → asked = names) ∧
    (transcript.map Exchange.call).filterMap HostCall.resolution? =
      asked.map fun name => (name, file)
  leads : ∀ before x after, transcript = before ++ x :: after →
    before = [] ∧ x.call = .directory ∨ ∃ front lead, before = front ++ lead ∧ Leads file lead x
  last : ∀ before x after p, transcript = before ++ x :: after → x.escape? = some p →
    after = [] ∧ escape = some p

theorem CallsInTurn.count_directory {file : Path} {names : List String} {u : List (Exchange κ)}
    {escape : Option Panic} (hu : CallsInTurn file names u escape) :
    (u.map Exchange.call).count .directory = 0 := by
  refine List.count_eq_zero.mpr fun hmem => ?_
  obtain ⟨x, hx, hcall⟩ := List.mem_map.mp hmem
  obtain ⟨before, after, hsplit⟩ := List.append_of_mem hx
  obtain ⟨front, lead, -, hlead⟩ := hu.exists_leads hsplit
  cases hlead <;> cases hcall

/-- The calls of an attempt keep order, with the file that goes with the directory. -/
theorem CallsOfAttempt.keepOrder {names : List String} {u : List (Exchange κ)}
    {escape : Option Panic} (hu : CallsOfAttempt names u escape) :
    ∃ file, (∀ directory, .directory (.ok directory) ∈ u → file = containingFile directory) ∧
      CallsKeepOrder file names u escape := by
  cases hu with
  | directory p =>
    refine ⟨containingFile none, by simp, by simp [Exchange.call], ⟨[], List.nil_prefix, ?_, rfl⟩,
      fun before x after hx => ?_, fun before x after q hx hq => ?_⟩
    · rintro ⟨⟩
    · obtain ⟨rfl, rfl, -⟩ := eq_of_singleton_eq hx
      exact .inl ⟨rfl, rfl⟩
    · obtain ⟨-, rfl, rfl⟩ := eq_of_singleton_eq hx
      exact ⟨rfl, hq⟩
  | @names directory u escape hcalls =>
    refine ⟨containingFile directory, fun other hother => ?_, ?_, ?_, fun before x after hx => ?_,
      fun before x after q hx hq => ?_⟩
    · rcases List.mem_cons.mp hother with heq | hmem
      · cases heq
        rfl
      · have hcount := List.count_eq_zero.mp hcalls.count_directory
        exact absurd (List.mem_map.mpr ⟨_, hmem, rfl⟩) hcount
    · rw [List.map_cons, List.count_cons, hcalls.count_directory]
      rfl
    · obtain ⟨asked, hfirst, hall, hasked⟩ := hcalls.exists_asked
      exact ⟨asked, hfirst, hall, hasked⟩
    -- the question for the directory stands in front of whatever leads to a call
    · rcases before with _ | ⟨y, before⟩
      · cases hx
        exact .inl ⟨rfl, rfl⟩
      · obtain ⟨hy, hrest⟩ := List.cons.inj hx
        obtain ⟨front, lead, rfl, hlead⟩ := hcalls.exists_leads hrest
        exact .inr ⟨y :: front, lead, rfl, hlead⟩
    · rcases before with _ | ⟨y, before⟩
      · cases hx
        cases hq
      · exact hcalls.eq_nil_of_escape? (List.cons.inj hx).2 hq

/-- **An attempt keeps to its calls.** Its transcript, which is also what its host has on record,
begins with the directory and goes on with the names in their order; it ends at the first panic that
gets out, and the attempt ends in that panic. -/
theorem Discovery.calls_of_attempt (setting : ExtensionSetting) (policy : UnknownKindPolicy)
    (h : Host κ σ) (s : σ) :
    ∃ transcript escape file,
      attempt setting policy h.transcribed (s, []) = ((attempt setting policy h s).1,
        ((attempt setting policy h s).2, transcript)) ∧
      attempt setting policy h.recorded (s, []) = ((attempt setting policy h s).1,
        ((attempt setting policy h s).2, transcript.map Exchange.call)) ∧
      CallsOfAttempt setting.names transcript escape ∧
      CallsKeepOrder file setting.names transcript escape ∧
      (∀ directory, .directory (.ok directory) ∈ transcript → file = containingFile directory) ∧
      ∀ p, (attempt setting policy h s).1.result = .error p ↔ escape = some p := by
  obtain ⟨u, hu, hcalls⟩ := LoadPhase.exists_callsOfAttempt_run h setting.names s
  obtain ⟨file, hfile, hkeep⟩ := hcalls.keepOrder
  have hrecorded := LoadPhase.run_seenThrough h.seenThrough_recorded setting.names (s, [])
  simp only [List.map_nil, hu] at hrecorded
  refine ⟨u, _, file, ?_, ?_, hcalls, hkeep, hfile, fun p => ?_⟩
  · simp only [attempt, hu]
  · simp only [attempt, hrecorded]
  · show (attempt setting policy h s).1.result = .error p ↔
      (attempt setting policy h s).1.phase.interruption.map Interruption.panic = some p
    rw [Attempt.result]
    cases (attempt setting policy h s).1.phase.interruption <;> simp

/-- The panic of a resolver is the last that is heard of the host. -/
theorem Discovery.calls_of_brittleTable :
    ∃ (transcript : List (Exchange Unit)) (file : Path),
      CallsOfAttempt ["good", "bad", "good"] transcript (some (.text "boom")) ∧
      CallsKeepOrder file ["good", "bad", "good"] transcript (some (.text "boom")) ∧
      transcript.map Exchange.call =
        [.directory, .resolve "good" ⟨"lintconfig.json"⟩, .hasLoader, .load ⟨"/ext/good"⟩,
          .resolve "bad" ⟨"lintconfig.json"⟩] := by
  obtain ⟨transcript, escape, file, -, hrecorded, hcalls, hkeep, -, hresult⟩ :=
    calls_of_attempt (.list ["good", "bad", "good"]) .reject LoadPhase.brittleTable.host 0
  have hescape : escape = some (.text "boom") := (hresult _).mp rfl
  rw [hescape] at hcalls hkeep
  refine ⟨transcript, file, hcalls, hkeep, ?_⟩
  have hrecord := congrArg (fun result => result.2.2) hrecorded
  exact hrecord.symm.trans rfl

end LintDiscovery
