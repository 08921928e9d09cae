/-
What discovery exchanges with its host.

A transcript lists the calls that were made on a host together with the answers they got. It is all
that discovery learns of the host: whoever gives the answers of a transcript again, one after the
other, makes discovery do the same again.

* `Host.transcribed` — a host that keeps a transcript;
* `Host.replay` — a host that gives the answers of a transcript;
* `Turn`, `Turns`, `Runs` — what is exchanged for a name, for names in sequence and in a load phase;
* `exists_runs` — a load phase leaves such a transcript, and does the same when it is replayed;
* `exists_exchanges_run` — a load phase asks for names in their order, and ends early exactly in the
  panics of `Exchange.escape?`;
* `exists_exchanges_attempt` — an attempt on a host is an attempt on its own transcript.
-/
import LintDiscovery.Discovery.Basic

namespace LintDiscovery

/-- A call made on a host, with the answer or the panic it ended in. -/
inductive Exchange (κ : Type) where
  | directory (answer : Except Panic (Option Path))
  | resolve (name : String) (containing : Path) (answer : Except Panic (Except ResolveError Path))
  | hasLoader (answer : Except Panic Bool)
  | load (path : Path) (answer : Except Panic (Loading κ))

namespace Exchange

variable {κ : Type}

/-- The name that was to be resolved. -/
def name? : Exchange κ → Option String
  | resolve name _ _ => some name
  | _ => none

/-- The panic of a call that is not guarded. Only loading is. -/
def escape? : Exchange κ → Option Panic
  | directory (.error p) => some p
  | resolve _ _ (.error p) => some p
  | hasLoader (.error p) => some p
  | _ => none

end Exchange

namespace Host

variable {κ σ : Type}

/-- A call that is written down with its answer. -/
def transcribing {α : Type} (line : Except Panic α → Exchange κ) (f : Call σ α) :
    Call (σ × List (Exchange κ)) α :=
  fun (s, t) =>
    let (answer, s) := f s
    (answer, (s, t ++ [line answer]))

/-- The same host with a transcript. -/
def transcribed (h : Host κ σ) : Host κ (σ × List (Exchange κ)) where
  directory := transcribing .directory h.directory
  resolve name file := transcribing (.resolve name file) (h.resolve name file)
  hasLoader := transcribing .hasLoader h.hasLoader
  load path := transcribing (.load path) (h.load path)

/-- The host that gives the answers of a transcript. It panics when another kind of call is made
than the one whose answer comes next. -/
def replay : Host κ (List (Exchange κ)) where
  directory
    | .directory answer :: t => (answer, t)
    | t => (.error .other, t)
  resolve _ _
    | .resolve _ _ answer :: t => (answer, t)
    | t => (.error .other, t)
  hasLoader
    | .hasLoader answer :: t => (answer, t)
    | t => (.error .other, t)
  load _
    | .load _ answer :: t => (answer, t)
    | t => (.error .other, t)

end Host

/-- `F` exchanges `u` with a host: on the transcribed host it also leaves `u` on the transcript, and
given `u` it does the same without the host. -/
structure Exchanges {κ σ α : Type} (F : ∀ {τ : Type}, Host κ τ → τ → α × τ) (h : Host κ σ) (s : σ)
    (u : List (Exchange κ)) : Prop where
  noted (t : List (Exchange κ)) : F h.transcribed (s, t) = ((F h s).1, ((F h s).2, t ++ u))
  replayed (v : List (Exchange κ)) : F Host.replay (u ++ v) = ((F h s).1, v)

/-- The name that was under way at an interruption. -/
def Interruption.name? : Interruption → Option String
  | directory _ => none
  | resolver name _ => some name
  | loaderQuery name _ _ => some name

namespace LoadPhase

variable {κ σ : Type}

/-- The names that a phase has asked for: those it has settled, and the one that was under way. -/
def asked (p : LoadPhase κ) : List String :=
  p.settled.map SettledName.name ++ (p.interruption.bind Interruption.name?).toList

/-! ### One name -/

/-- The turn of a name: what is exchanged with a host for it, and what comes of it. -/
inductive Turn (file : Path) (name : String) :
    List (Exchange κ) → Except Interruption (Fate κ) → Prop
  | resolverPanic (p : Panic) :
      Turn file name [.resolve name file (.error p)] (.error (.resolver name p))
  | unresolved (e : ResolveError) :
      Turn file name [.resolve name file (.ok (.error e))] (.ok (.unresolved e))
  | queryPanic (path : Path) (p : Panic) :
      Turn file name [.resolve name file (.ok (.ok path)), .hasLoader (.error p)]
        (.error (.loaderQuery name path p))
  | withoutLoader (path : Path) :
      Turn file name [.resolve name file (.ok (.ok path)), .hasLoader (.ok false)]
        (.ok (.withoutLoader path))
  | load (path : Path) (answer : Except Panic (Loading κ)) :
      Turn file name [.resolve name file (.ok (.ok path)), .hasLoader (.ok true),
        .load path answer] (.ok (.ofLoading path answer))

/-- Settling a name is a turn of it. -/
theorem exists_turn (h : Host κ σ) (file : Path) (name : String) (s : σ) :
    ∃ u, Exchanges (fun h s => settle h file name s) h s u ∧
      Turn file name u (settle h file name s).1 := by
  -- one case for each point at which a name can be decided
  rcases hr : h.resolve name file s with ⟨p | e | path, s₁⟩
  · refine ⟨[.resolve name file (.error p)], ⟨fun t => ?_, fun v => ?_⟩, ?_⟩
    · simp [settle, Host.transcribed, Host.transcribing, hr]
    · simp [settle, Host.replay, hr]
    · simpa [settle, hr] using .resolverPanic p
  · refine ⟨[.resolve name file (.ok (.error e))], ⟨fun t => ?_, fun v => ?_⟩, ?_⟩
    · simp [settle, Host.transcribed, Host.transcribing, hr]
    · simp [settle, Host.replay, hr]
    · simpa [settle, hr] using .unresolved e
  rcases hq : h.hasLoader s₁ with ⟨p | _ | _, s₂⟩
  · refine ⟨[.resolve name file (.ok (.ok path)), .hasLoader (.error p)],
      ⟨fun t => ?_, fun v => ?_⟩, ?_⟩
    · simp [settle, Host.transcribed, Host.transcribing, hr, hq]
    · simp [settle, Host.replay, hr, hq]
    · simpa [settle, hr, hq] using .queryPanic path p
  · refine ⟨[.resolve name file (.ok (.ok path)), .hasLoader (.ok false)],
      ⟨fun t => ?_, fun v => ?_⟩, ?_⟩
    · simp [settle, Host.transcribed, Host.transcribing, hr, hq]
    · simp [settle, Host.replay, hr, hq]
    · simpa [settle, hr, hq] using .withoutLoader path
  rcases hl : h.load path s₂ with ⟨answer, s₃⟩
  refine ⟨[.resolve name file (.ok (.ok path)), .hasLoader (.ok true), .load path answer],
    ⟨fun t => ?_, fun v => ?_⟩, ?_⟩
  · simp [settle, Host.transcribed, Host.transcribing, hr, hq, hl]
  · simp [settle, Host.replay, hr, hq, hl]
  · simpa [settle, hr, hq, hl] using .load path answer

section Turn

variable {file : Path} {name : String} {u : List (Exchange κ)}
  {outcome : Except Interruption (Fate κ)}

/-- A turn asks for its own name only. -/
theorem Turn.filterMap_name? (h : Turn file name u outcome) :
    u.filterMap Exchange.name? = [name] := by
  cases h <;> rfl

theorem Turn.findSome?_escape?_of_ok {fate : Fate κ} (h : Turn file name u (.ok fate)) :
    u.findSome? Exchange.escape? = none := by
  cases h <;> rfl

/-- A turn is interrupted by a panic that is not guarded. -/
theorem Turn.findSome?_escape?_of_error {i : Interruption} (h : Turn file name u (.error i)) :
    u.findSome? Exchange.escape? = some i.panic := by
  cases h <;> rfl

theorem Turn.name?_of_error {i : Interruption} (h : Turn file name u (.error i)) :
    i.name? = some name := by
  cases h <;> rfl

end Turn

/-! ### Names in sequence -/

/-- The turns of names in sequence, up to the first that is interrupted. -/
inductive Turns (file : Path) : List String → List (Exchange κ) → LoadPhase κ → Prop
  | nil : Turns file [] [] ⟨[], none⟩
  | cons {name : String} {rest : List String} {u v : List (Exchange κ)} {fate : Fate κ}
      {phase : LoadPhase κ} (hturn : Turn file name u (.ok fate))
      (hrest : Turns file rest v phase) :
      Turns file (name :: rest) (u ++ v) ⟨⟨name, fate⟩ :: phase.settled, phase.interruption⟩
  | cut {name : String} {rest : List String} {u : List (Exchange κ)} {i : Interruption}
      (hturn : Turn file name u (.error i)) : Turns file (name :: rest) u ⟨[], some i⟩

theorem exists_turns (h : Host κ σ) (file : Path) (names : List String) (s : σ) :
    ∃ u, Exchanges (fun h s => settleAll h file names s) h s u ∧
      Turns file names u (settleAll h file names s).1 := by
  induction names generalizing s with
  | nil => exact ⟨[], ⟨fun t => by simp [settleAll], fun v => rfl⟩, .nil⟩
  | cons name rest ih =>
    obtain ⟨u, hu, hturn⟩ := exists_turn h file name s
    rcases hs : settle h file name s with ⟨i | fate, s₁⟩
    -- the transcript ends with this name
    · rw [hs] at hturn
      refine ⟨u, ⟨fun t => ?_, fun v => ?_⟩, ?_⟩
      · have := hu.noted t
        simp only [hs] at this
        simp [settleAll, this, hs]
      · have := hu.replayed v
        simp only [hs] at this
        simp [settleAll, this, hs]
      · simpa [settleAll, hs] using .cut hturn
    -- the transcript goes on with that of the other names
    · rw [hs] at hturn
      obtain ⟨w, hw, hturns⟩ := ih s₁
      refine ⟨u ++ w, ⟨fun t => ?_, fun v => ?_⟩, ?_⟩
      · have := hu.noted t
        simp only [hs] at this
        simp [settleAll, this, hs, hw.noted]
      · have := hu.replayed (w ++ v)
        simp only [hs] at this
        simp [settleAll, this, hs, hw.replayed]
      · simpa [settleAll, hs] using .cons hturn hturns

section Turns

variable {file : Path} {names : List String} {u : List (Exchange κ)} {phase : LoadPhase κ}

theorem Turns.filterMap_name? (h : Turns file names u phase) :
    u.filterMap Exchange.name? = phase.asked := by
  induction h with
  | nil => rfl
  | cons hturn _ ih =>
    rw [List.filterMap_append, hturn.filterMap_name?, ih]
    rfl
  | cut hturn => simp [asked, hturn.filterMap_name?, hturn.name?_of_error]

theorem Turns.findSome?_escape? (h : Turns file names u phase) :
    u.findSome? Exchange.escape? = phase.interruption.map Interruption.panic := by
  induction h with
  | nil => rfl
  | cons hturn _ ih => rw [List.findSome?_append, hturn.findSome?_escape?_of_ok, ih, Option.none_or]
  | cut hturn => rw [hturn.findSome?_escape?_of_error, Option.map_some]

theorem Turns.asked_prefix (h : Turns file names u phase) :
    phase.asked <+: names ∧ (phase.interruption = none → phase.asked = names) := by
  induction h with
  | nil => exact ⟨List.nil_prefix, fun _ => rfl⟩
  | cons _ _ ih => exact ⟨by simpa [asked] using ih.1, fun hi => by simpa [asked] using ih.2 hi⟩
  | cut hturn => simp [asked, hturn.name?_of_error]

end Turns

/-! ### A load phase -/

/-- A load phase: the directory, and then the turns of the names. -/
inductive Runs (names : List String) : List (Exchange κ) → LoadPhase κ → Prop
  | directory (p : Panic) : Runs names [.directory (.error p)] ⟨[], some (.directory p)⟩
  | names {directory : Option Path} {u : List (Exchange κ)} {phase : LoadPhase κ}
      (hturns : Turns (containingFile directory) names u phase) :
      Runs names (.directory (.ok directory) :: u) phase

theorem exists_runs (h : Host κ σ) (names : List String) (s : σ) :
    ∃ u, Exchanges (fun h s => run h names s) h s u ∧ Runs names u (run h names s).1 := by
  rcases hd : h.directory s with ⟨p | directory, s₁⟩
  · refine ⟨[.directory (.error p)], ⟨fun t => ?_, fun v => ?_⟩, ?_⟩
    · simp [run, Host.transcribed, Host.transcribing, hd]
    · simp [run, Host.replay, hd]
    · simpa [run, hd] using .directory p
  · obtain ⟨u, hu, hturns⟩ := exists_turns h (containingFile directory) names s₁
    refine ⟨.directory (.ok directory) :: u, ⟨fun t => ?_, fun v => ?_⟩, ?_⟩
    · have := hu.noted (t ++ [.directory (.ok directory)])
      simpa [run, Host.transcribed, Host.transcribing, hd] using this
    · have := hu.replayed v
      simpa [run, Host.replay, hd] using this
    · simpa [run, hd] using .names hturns

section Runs

variable {names : List String} {u : List (Exchange κ)} {phase : LoadPhase κ}

theorem Runs.filterMap_name? (h : Runs names u phase) :
    u.filterMap Exchange.name? = phase.asked := by
  cases h with
  | directory p => rfl
  | names hturns => exact hturns.filterMap_name?

theorem Runs.findSome?_escape? (h : Runs names u phase) :
    u.findSome? Exchange.escape? = phase.interruption.map Interruption.panic := by
  cases h with
  | directory p => rfl
  | names hturns => exact hturns.findSome?_escape?

theorem Runs.asked_prefix (h : Runs names u phase) :
    phase.asked <+: names ∧ (phase.interruption = none → phase.asked = names) := by
  cases h with
  | directory p => simp [asked, Interruption.name?]
  | names hturns => exact hturns.asked_prefix

end Runs

/-- **A load phase exchanges with its host what it shows**: it has asked for the names that it
settled and the one it was interrupted at, and what interrupted it is the first panic of a call that
is not guarded. -/
theorem exists_exchanges_run (h : Host κ σ) (names : List String) (s : σ) :
    ∃ u, Exchanges (fun h s => run h names s) h s u ∧
      u.filterMap Exchange.name? = (run h names s).1.asked ∧
      u.findSome? Exchange.escape? = (run h names s).1.interruption.map Interruption.panic := by
  obtain ⟨u, hu, hruns⟩ := exists_runs h names s
  exact ⟨u, hu, hruns.filterMap_name?, hruns.findSome?_escape?⟩

/-- The names that a phase has asked for are the first ones, and all of them when nothing interrupts
it. -/
theorem asked_run (h : Host κ σ) (names : List String) (s : σ) :
    (run h names s).1.asked <+: names ∧
      ((run h names s).1.interruption = none → (run h names s).1.asked = names) := by
  obtain ⟨u, -, hruns⟩ := exists_runs h names s
  exact hruns.asked_prefix

end LoadPhase

/-! ### An attempt -/

/-- **An attempt learns nothing of a host but its answers**: on its own transcript it comes to the
same, with nothing left over. -/
theorem Discovery.exists_exchanges_attempt {κ σ : Type} (setting : ExtensionSetting)
    (policy : UnknownKindPolicy) (h : Host κ σ) (s : σ) :
    ∃ u, Exchanges (fun h s => attempt setting policy h s) h s u ∧
      u.filterMap Exchange.name? = (attempt setting policy h s).1.phase.asked := by
  obtain ⟨u, hu, hnames, -⟩ := LoadPhase.exists_exchanges_run h setting.names s
  refine ⟨u, ⟨fun t => ?_, fun v => ?_⟩, hnames⟩
  · have := hu.noted t
    simp only [attempt, this]
  · have := hu.replayed v
    simp only [attempt, this]

end LintDiscovery
