/-
The wording of diagnostics.

A diagnostic is worded by an entry of the catalog: the template of the entry is literal text with
numbered slots in it, one for each argument of the diagnostic, and its message has the arguments in
their places, letter by letter. Arguments are texts that come from elsewhere; they may look like
slots themselves, which makes no difference, since what is filled in is not filled again.

* `interleave`, `render_interleave` — literals with slots between them, and with arguments;
* `Diagnostic.WordedBy` — a diagnostic that is worded by an entry;
* `Problem.wordedBy` — every problem is worded by its entry;
* `Loading.Explains` — what is said of a failure to load;
* `Diagnostic.Originates` — where the arguments of a diagnostic come from;
* `LoadPhase.Runs.originates`, `Admission.originates_of_judgeAll` — the two sources of problems;
* `diagnostics_worded` — the diagnostics of an attempt.
-/
import LintDiscovery.Proofs.ExportFates
import LintDiscovery.Proofs.TemplateFilling
import LintDiscovery.Proofs.Transcript

namespace LintDiscovery

variable {κ σ : Type}

/-! ### Literals and slots -/

namespace Template

/-- Literals with other texts between them. -/
def interleave : List String → List String → String
  | [], _ => ""
  | literal :: _, [] => literal
  | literal :: literals, x :: xs => literal ++ x ++ interleave literals xs

/-- The slot of a number. -/
def slotOf (number : Nat) : String :=
  String.ofList (written (Nat.toDigits 10 number))

/-- The number of a slot. -/
def Piece.number? : Piece → Option Nat
  | char _ => none
  | slot digits => some (number digits)

theorem piecesFrom_of_not_mem {cs : List Char} (h : '\x7b' ∉ cs) :
    piecesFrom none cs = cs.map .char := by
  induction cs with
  | nil => rfl
  | cons c cs ih =>
    rw [List.mem_cons, not_or] at h
    rw [piecesFrom, if_neg (Ne.symm h.1), ih h.2, List.map_cons]

/-- Text without an open brace is rendered as it is. -/
theorem render_of_not_mem {literal : String} (h : '\x7b' ∉ literal.toList) (args : List String) :
    render literal args = literal := by
  rw [render, pieces, piecesFrom_of_not_mem h, List.flatMap_map]
  simp [Piece.text]

theorem isNumeral_toDigits (n : Nat) : IsNumeral (Nat.toDigits 10 n) :=
  ⟨Nat.toDigits_ne_nil, fun _ hd => Nat.isDigit_of_mem_toDigits (by omega) (by omega) hd⟩

/-- Literals with the slots of some arguments between them become the literals with the arguments
between them. -/
theorem render_interleave {literals front rest : List String}
    (hliterals : ∀ l ∈ literals, '\x7b' ∉ l.toList) (hlength : literals.length = rest.length + 1) :
    render (interleave literals ((List.range' front.length rest.length).map slotOf))
        (front ++ rest) = interleave literals rest := by
  -- the arguments that are in front keep the numbers of the slots right
  induction rest generalizing front literals with
  | nil =>
    obtain ⟨l, rfl⟩ := List.length_eq_one_iff.mp hlength
    exact render_of_not_mem (hliterals l (by simp)) _
  | cons x rest ih =>
    obtain ⟨l, literals, rfl⟩ := List.exists_cons_of_length_eq_add_one hlength
    have harg : (front ++ x :: rest)[Nat.ofDigitChars 10 (Nat.toDigits 10 front.length) 0]? =
        some x := by
      rw [Nat.ofDigitChars_toDigits (by omega) (by omega)]
      simp
    have hfront : front ++ x :: rest = (front ++ [x]) ++ rest := by simp
    have hrest : ∀ l ∈ literals, '\x7b' ∉ l.toList := fun l hl => hliterals l (by simp [hl])
    have htail : render (interleave literals
          ((List.range' (front ++ [x]).length rest.length).map slotOf)) ((front ++ [x]) ++ rest) =
        interleave literals rest := ih hrest (by simpa using hlength)
    rw [List.length_append, List.length_singleton, ← hfront] at htail
    rw [List.length_cons, List.range'_succ, List.map_cons, interleave, slotOf,
      render_append_slot (isNumeral_toDigits _) harg, htail,
      render_of_not_mem (hliterals l (by simp)), interleave]

/-- Literals with slots between them have just these slots. -/
theorem numbers_interleave {literals : List String} {numbers : List Nat}
    (hliterals : ∀ l ∈ literals, '\x7b' ∉ l.toList)
    (hlength : literals.length = numbers.length + 1) :
    (pieces (interleave literals (numbers.map slotOf))).filterMap Piece.number? = numbers := by
  have hliteral : ∀ cs : List Char, (cs.map Piece.char).filterMap Piece.number? = [] := by
    intro cs
    simp [List.filterMap_map, Function.comp_def, Piece.number?]
  unfold pieces
  -- a slot cuts the text before it off, and a literal in front has no slot in it
  induction numbers generalizing literals with
  | nil =>
    obtain ⟨l, rfl⟩ := List.length_eq_one_iff.mp hlength
    rw [List.map_nil, interleave, piecesFrom_of_not_mem (hliterals l (by simp)), hliteral]
  | cons n numbers ih =>
    obtain ⟨l, literals, rfl⟩ := List.exists_cons_of_length_eq_add_one hlength
    have hrest := ih (fun l hl => hliterals l (List.mem_cons_of_mem _ hl)) (by simpa using hlength)
    have hnumber : number (Nat.toDigits 10 n) = n :=
      Nat.ofDigitChars_toDigits (by omega) (by omega)
    rw [List.map_cons, interleave, String.toList_append, String.toList_append, slotOf,
      String.toList_ofList, pieces_append_slot (isNumeral_toDigits n), List.filterMap_append,
      piecesFrom_of_not_mem (hliterals l (by simp)), hliteral, List.nil_append]
    rw [List.filterMap_cons, Piece.number?, hnumber, hrest]

end Template

/-! ### Wording -/

/-- The template of an entry is composed of literals, which have no braces in them, with slots
between them that are numbered from zero. -/
structure Entry.ComposedOf (entry : Entry) (literals : List String) (slots : Nat) : Prop where
  length : literals.length = slots + 1
  plain : ∀ l ∈ literals, '\x7b' ∉ l.toList ∧ '\x7d' ∉ l.toList
  template : entry.template =
    Template.interleave literals ((List.range slots).map Template.slotOf)

namespace Catalog

theorem composedOf_notFound :
    notFound.ComposedOf ["Extension '", "' could not be found."] 1 :=
  ⟨rfl, by decide, rfl⟩

theorem composedOf_loadingNotImplemented :
    loadingNotImplemented.ComposedOf ["Extension loading not implemented by host."] 0 :=
  ⟨rfl, by decide, rfl⟩

theorem composedOf_loadFailed :
    loadFailed.ComposedOf
      ["Extension '", "' could not be loaded because of the error: ", ""] 2 :=
  ⟨rfl, by decide, rfl⟩

theorem composedOf_wrongType :
    wrongType.ComposedOf ["Extension '", "' exported member '", "' has extension kind '",
      "', but was type '", "' when type '", "' was expected."] 5 :=
  ⟨rfl, by decide, rfl⟩

theorem composedOf_kindUnsupported :
    kindUnsupported.ComposedOf ["Extension '", "' exported member '",
      "' declares unsupported extension kind '", "'."] 3 :=
  ⟨rfl, by decide, rfl⟩

end Catalog

/-- A diagnostic is worded by an entry: it has one argument for each slot of the template, which are
numbered from zero, and its message is the literals of the template with the arguments between
them. -/
structure Diagnostic.WordedBy (d : Diagnostic) (entry : Entry) : Prop where
  category : d.category = entry.category
  code : d.code = entry.code
  slots : (Template.pieces entry.template).filterMap Template.Piece.number? =
    List.range d.args.length
  wording : ∃ literals, entry.ComposedOf literals d.args.length ∧
    d.message = Template.interleave literals d.args

theorem Entry.ComposedOf.wordedBy {entry : Entry} {literals args : List String}
    (h : entry.ComposedOf literals args.length) :
    (Diagnostic.ofEntry entry args).WordedBy entry := by
  have hliterals : ∀ l ∈ literals, '\x7b' ∉ l.toList := fun l hl => (h.plain l hl).1
  refine ⟨rfl, rfl, ?_, literals, h, ?_⟩
  · rw [h.template]
    exact Template.numbers_interleave hliterals (by rw [List.length_range]; exact h.length)
  have hrender : Template.render (Template.interleave literals
        ((List.range' ([] : List String).length args.length).map Template.slotOf)) ([] ++ args) =
      Template.interleave literals args := Template.render_interleave hliterals h.length
  rw [List.length_nil, ← List.range_eq_range', ← h.template, List.nil_append] at hrender
  exact hrender

/-- Every problem is worded by its entry. -/
theorem Problem.wordedBy (p : Problem) : p.diagnostic.WordedBy p.entry := by
  cases p with
  | notFound name => exact Catalog.composedOf_notFound.wordedBy
  | loadingNotImplemented => exact Catalog.composedOf_loadingNotImplemented.wordedBy
  | loadFailed name detail => exact Catalog.composedOf_loadFailed.wordedBy
  | wrongType module key tag actual expected => exact Catalog.composedOf_wrongType.wordedBy
  | kindUnsupported module key tag => exact Catalog.composedOf_kindUnsupported.wordedBy

/-- A name and a detail that look like slots are not filled. -/
example : (Problem.loadFailed "\x7b1\x7d" "\x7b0\x7d\n\x7b").diagnostic.message =
    "Extension '\x7b1\x7d' could not be loaded because of the error: \x7b0\x7d\n\x7b" := by
  decide

theorem Problem.entry_mem (p : Problem) : p.entry ∈ Catalog.entries.map Prod.snd := by
  cases p <;> simp [entry, Catalog.entries]

/-! ### Where the arguments come from -/

/-- What a failure to load says for the answer of a loader: the message of the failure and the whole
stack below it if there is one, or the whole text of a panic. -/
inductive Loading.Explains : Except Panic (Loading κ) → String → Prop
  | message {message : String} {events : List Event} :
      Explains (.ok ⟨.error ⟨message, none⟩, events⟩) message
  | stack {message stack : String} {events : List Event} :
      Explains (.ok ⟨.error ⟨message, some stack⟩, events⟩) (message ++ "\n" ++ stack)
  | panic {payload : String} :
      Explains (.error (.text payload)) ("extension loader panicked: " ++ payload)
  | otherPanic :
      Explains (.error .other) "extension loader panicked: non-string panic payload"

/-- Where a diagnostic comes from. It is about a configured name and what the host answered for this
name, or about a tagged export of a module; what it is given is taken from there. -/
inductive Diagnostic.Originates (names : List String) (modules : List (LoadedModule κ))
    (transcript : List (Exchange κ)) : Diagnostic → Prop
  | notFound {name : String} {file : Path} {e : ResolveError} (hname : name ∈ names)
      (hcalls : [.resolve name file (.ok (.error e))] <:+: transcript) :
      Originates names modules transcript (.ofEntry Catalog.notFound [name])
  | loadingNotImplemented {name : String} {file path : Path} (hname : name ∈ names)
      (hcalls : [.resolve name file (.ok (.ok path)), .hasLoader (.ok false)] <:+: transcript) :
      Originates names modules transcript (.ofEntry Catalog.loadingNotImplemented [])
  | loadFailed {name detail : String} {file path : Path} {answer : Except Panic (Loading κ)}
      (hname : name ∈ names)
      (hcalls : [.resolve name file (.ok (.ok path)), .hasLoader (.ok true), .load path answer] <:+:
        transcript)
      (hdetail : Loading.Explains answer detail) :
      Originates names modules transcript (.ofEntry Catalog.loadFailed [name, detail])
  | wrongType {m : LoadedModule κ} {key tag : String} {value : Json} (hm : m ∈ modules)
      (hentry : (key, .data (some (.string tag)) value) ∈ m.exports.entries) :
      Originates names modules transcript
        (.ofEntry Catalog.wrongType [m.name, key, tag, value.typeName, "function"])
  | kindUnsupported {m : LoadedModule κ} {key tag : String} {e : Export κ} (hm : m ∈ modules)
      (hentry : (key, e) ∈ m.exports.entries) (htag : e.tag? = some (.string tag)) :
      Originates names modules transcript (.ofEntry Catalog.kindUnsupported [m.name, key, tag])

namespace Diagnostic

variable {names others : List String} {modules : List (LoadedModule κ)}
  {transcript longer : List (Exchange κ)} {x : Diagnostic}

theorem Originates.mono (h : x.Originates names modules transcript) (hnames : names ⊆ others)
    (hlonger : transcript <:+: longer) : x.Originates others modules longer := by
  cases h with
  | notFound hname hcalls => exact .notFound (hnames hname) (hcalls.trans hlonger)
  | loadingNotImplemented hname hcalls =>
    exact .loadingNotImplemented (hnames hname) (hcalls.trans hlonger)
  | loadFailed hname hcalls hdetail =>
    exact .loadFailed (hnames hname) (hcalls.trans hlonger) hdetail
  | wrongType hm hentry => exact .wrongType hm hentry
  | kindUnsupported hm hentry htag => exact .kindUnsupported hm hentry htag

/-- The second argument of a failure to load explains an answer that the loader gave. -/
theorem Originates.explained (h : x.Originates names modules transcript)
    (hcode : x.code = Catalog.loadFailed.code) :
    ∃ name detail path answer, x.args = [name, detail] ∧ name ∈ names ∧
      .load path answer ∈ transcript ∧ Loading.Explains answer detail := by
  cases h with
  | @loadFailed name detail _ path answer hname hcalls hdetail =>
    exact ⟨name, detail, path, answer, rfl, hname, hcalls.subset (by simp), hdetail⟩
  | notFound _ _ => cases hcode
  | loadingNotImplemented _ _ => cases hcode
  | wrongType _ _ => cases hcode
  | kindUnsupported _ _ _ => cases hcode

end Diagnostic

theorem Loading.explains_ofPanic (p : Panic) :
    Explains (.error p : Except Panic (Loading κ)) (LoadError.ofPanic p).detail := by
  cases p with
  | text payload => exact .panic
  | other => exact .otherPanic

theorem Loading.explains_detail (e : LoadError) (events : List Event) :
    Explains (.ok ⟨.error e, events⟩ : Except Panic (Loading κ)) e.detail := by
  obtain ⟨message, _ | stack⟩ := e
  · exact .message
  · exact .stack

namespace LoadPhase

/-- What a name that is settled is complained of originates in its turn. -/
theorem Turn.originates {file : Path} {name : String} {u : List (Exchange κ)} {fate : Fate κ}
    {p : Problem} {names : List String} (h : Turn file name u (.ok fate)) (hname : name ∈ names)
    (hp : SettledName.problem? ⟨name, fate⟩ = some p) (modules : List (LoadedModule κ)) :
    p.diagnostic.Originates names modules u := by
  cases h with
  | unresolved e =>
    cases hp
    exact .notFound hname List.infix_rfl
  | withoutLoader path =>
    cases hp
    exact .loadingNotImplemented hname List.infix_rfl
  | load path answer =>
    -- the loader leaves a name with a failure or without a problem
    rcases answer with panic | ⟨e | exports, logged⟩
    · cases hp
      exact .loadFailed hname List.infix_rfl (Loading.explains_ofPanic panic)
    · cases hp
      exact .loadFailed hname List.infix_rfl (Loading.explains_detail e logged)
    · cases hp

theorem Turns.originates {file : Path} {names : List String} {u : List (Exchange κ)}
    {phase : LoadPhase κ} (h : Turns file names u phase) {p : Problem} (hp : p ∈ phase.problems)
    (modules : List (LoadedModule κ)) : p.diagnostic.Originates names modules u := by
  induction h with
  | nil => cases hp
  | @cons name rest u v _ _ hturn _ ih =>
    obtain ⟨n, hn, hproblem⟩ := List.mem_filterMap.mp hp
    -- what was exchanged for the first name stands in front of the rest, uninterrupted
    rcases List.mem_cons.mp hn with rfl | hn
    · exact (hturn.originates List.mem_cons_self hproblem modules).mono (List.Subset.refl _)
        (List.prefix_append u v).isInfix
    · exact (ih (List.mem_filterMap.mpr ⟨n, hn, hproblem⟩)).mono (List.subset_cons_self _ _)
        (List.suffix_append u v).isInfix
  | cut _ => cases hp

/-- The problems of a phase originate in what the host answered. -/
theorem Runs.originates {names : List String} {u : List (Exchange κ)} {phase : LoadPhase κ}
    (h : Runs names u phase) {p : Problem} (hp : p ∈ phase.problems)
    (modules : List (LoadedModule κ)) : p.diagnostic.Originates names modules u := by
  cases h with
  | directory _ => cases hp
  | names hturns =>
    exact (hturns.originates hp modules).mono (List.Subset.refl _) (List.suffix_cons _ _).isInfix

end LoadPhase

/-- What is said against an export is about the export. -/
theorem Admission.Fares.originates {policy : UnknownKindPolicy} {args : Option Json}
    {m : LoadedModule κ} {entry : String × Export κ} {x : Diagnostic} {names : List String}
    {modules : List (LoadedModule κ)} {transcript : List (Exchange κ)}
    (h : Fares policy m.name args entry (.diagnostic x)) (hm : m ∈ modules)
    (hentry : entry ∈ m.exports.entries) : x.Originates names modules transcript := by
  obtain ⟨key, e⟩ := entry
  cases h with
  | mistyped he _ =>
    obtain rfl : e = _ := he
    exact .wrongType hm hentry
  | unsupported he _ _ => exact .kindUnsupported hm hentry he

theorem Admission.originates_of_judgeAll {policy : UnknownKindPolicy}
    {args? : String → Option Json} {modules : List (LoadedModule κ)} {p : Problem}
    (hp : p ∈ (judgeAll policy args? modules).filterMap Verdict.problem?) (names : List String)
    (transcript : List (Exchange κ)) : p.diagnostic.Originates names modules transcript := by
  obtain ⟨v, hv, hproblem⟩ := List.mem_filterMap.mp hp
  obtain ⟨m, hm, hv⟩ := List.mem_flatMap.mp hv
  obtain ⟨entry, hentry, rfl⟩ := List.mem_map.mp hv
  have hfares := fares_judge policy m.name (args? m.name) entry
  have hdiagnostic := (judge policy m.name (args? m.name) entry).diagnostic?_fate
  rw [hproblem, Option.map_some] at hdiagnostic
  rcases hfate : (judge policy m.name (args? m.name) entry).fate with _ | x | x
  · rw [hfate] at hdiagnostic
    cases hdiagnostic
  · rw [hfate] at hdiagnostic
    cases hdiagnostic
  · rw [hfate] at hdiagnostic hfares
    obtain rfl : x = p.diagnostic := Option.some.inj hdiagnostic
    exact hfares.originates hm hentry

/-! ### The diagnostics of an attempt -/

/-- **Every diagnostic is worded by the catalog, and its arguments are passed on as they are.** An
attempt on any host leaves a transcript. If the attempt returns, each of its diagnostics has one of
the five codes and as many arguments as the template of its entry has slots, and its message is the
literals of the template with the arguments between them. The arguments are what the transcript and
the exports of the modules say, and that of a failure to load is the whole explanation. -/
theorem Discovery.diagnostics_worded (setting : ExtensionSetting) (policy : UnknownKindPolicy)
    (h : Host κ σ) (s : σ) :
    ∃ transcript,
      attempt setting policy h.transcribed (s, []) = ((attempt setting policy h s).1,
        ((attempt setting policy h s).2, transcript)) ∧
      ∀ d, (attempt setting policy h s).1.result = .ok d → ∀ x ∈ d.diagnostics,
        x.code ∈ [6151, 6152, 6153, 6154, 6155] ∧
        (∃ entry ∈ Catalog.entries.map Prod.snd, x.WordedBy entry) ∧
        x.Originates setting.names (attempt setting policy h s).1.phase.modules transcript ∧
        (x.code = 6153 → ∃ name detail path answer, x.args = [name, detail] ∧
          name ∈ setting.names ∧ .load path answer ∈ transcript ∧
          Loading.Explains answer detail) := by
  obtain ⟨transcript, htranscript, hruns⟩ := LoadPhase.exists_runs h setting.names s
  refine ⟨transcript, by simp only [attempt, htranscript.noted, List.nil_append],
    fun d hd x hx => ?_⟩
  obtain ⟨hi, rfl⟩ := Attempt.result_eq_ok_iff.mp hd
  obtain ⟨p, hp, rfl⟩ := List.mem_map.mp hx
  have horigin : p.diagnostic.Originates setting.names
      (attempt setting policy h s).1.phase.modules transcript := by
    rcases List.mem_append.mp hp with hp | hp
    · exact hruns.originates hp _
    · rw [verdicts_attempt hi] at hp
      exact Admission.originates_of_judgeAll hp setting.names transcript
  have hcodes : ∀ entry ∈ Catalog.entries.map Prod.snd,
      entry.code ∈ [6151, 6152, 6153, 6154, 6155] := by decide
  exact ⟨hcodes _ p.entry_mem, ⟨p.entry, p.entry_mem, p.wordedBy⟩, horigin, horigin.explained⟩

end LintDiscovery
