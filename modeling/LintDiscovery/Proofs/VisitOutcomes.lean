/-
What visits amount to.

A walker that is shown nodes one after the other issues commands at each of them. A visit to a node
records whether there was a stop among the commands and what the others reported, in their order; it
knows nothing of the nodes before. Reporting is no more than recording, so the span of a finding may
reach beyond the largest offset, which shows only when somebody asks where it ends.

* `Reports`, `reports_iff` — the findings of commands, one rule for each form;
* `Records`, `records_iff` — what a visit records of its commands;
* `Walker.Visits`, `Walker.visits_iff` — visits to nodes in sequence;
* `withRules_eq` — the last rule counts;
* `Finding.finish_eq_error_iff` — findings whose end is beyond the largest offset;
* `Walker.visits_record` — the visits of a walker.
-/
import LintDiscovery.Visit.Basic
import Mathlib.Data.List.Forall2

namespace LintDiscovery

variable {σ : Type} {n : Node} {c : Command} {f : Finding} {v : Visit}

/-! ### Findings -/

/-- The finding that a command reports at a node: with a rule or without, at no place, at the node
or at a span of its own, which may be that of another node; or any finding at all. -/
inductive Reports (n : Node) : Command → Finding → Prop
  | message (text : String) : Reports n (.report none text .nowhere) (.ofMessage text)
  | node (text : String) : Reports n (.report none text .node) (.atNode text n)
  | span (text : String) (start length : Nat) :
      Reports n (.report none text (.span ⟨start, length⟩)) (.atSpan text start length)
  | rule (rule text : String) :
      Reports n (.report (some rule) text .nowhere) ((Finding.ofMessage text).withRule rule)
  | ruleNode (rule text : String) :
      Reports n (.report (some rule) text .node) ((Finding.atNode text n).withRule rule)
  | ruleSpan (rule text : String) (start length : Nat) :
      Reports n (.report (some rule) text (.span ⟨start, length⟩))
        ((Finding.atSpan text start length).withRule rule)
  | finding (f : Finding) : Reports n (.finding f) f

theorem reports_iff : Reports n c f ↔ c.finding? n = some f := by
  constructor
  · rintro (_ | _ | _ | _ | _ | _ | _) <;> rfl
  · intro h
    cases c with
    | stop => cases h
    | finding f =>
      cases h
      exact .finding f
    | report rule text anchor =>
      cases h
      -- two forms for each anchor
      cases anchor with
      | nowhere =>
        cases rule with
        | none => exact .message text
        | some rule => exact .rule rule text
      | node =>
        cases rule with
        | none => exact .node text
        | some rule => exact .ruleNode rule text
      | span s =>
        cases rule with
        | none => exact .span text s.start s.length
        | some rule => exact .ruleSpan rule text s.start s.length

/-- Of the rules that a finding is given, the last counts. The rest of it stays. -/
theorem Finding.withRules_eq (rules : List String) (f : Finding) :
    f.withRules rules = ⟨rules.getLast?.or f.rule, f.message, f.span⟩ := by
  induction rules generalizing f with
  | nil => rfl
  | cons rule rest ih =>
    have hrest : f.withRules (rule :: rest) = (f.withRule rule).withRules rest := rfl
    rw [hrest, ih, List.getLast?_cons]
    cases rest.getLast? <;> rfl

/-- Asking for the end of a finding panics when it has a place and the end is no offset. -/
theorem Finding.finish_eq_error_iff (f : Finding) :
    (∃ p, f.finish = .error p) ↔ ∃ s, f.span = some s ∧ maxOffset < s.start + s.length := by
  rw [finish]
  cases f.span with
  | none => simp
  | some s =>
    simp only [Span.finish]
    split
    · rename_i hle
      simpa [Except.map] using hle
    · rename_i hlt
      simpa [Except.map] using hlt

/-! ### One visit -/

/-- What a visit records of its commands: it is stopped when there is a stop among them, and has the
findings that the others report, one for each of them and in their order. -/
structure Records (n : Node) (commands : List Command) (v : Visit) : Prop where
  stopped : v.stopped = true ↔ .stop ∈ commands
  findings : List.Forall₂ (Reports n) (commands.filter (· ≠ .stop)) v.findings

/-- One more command stops a visit or adds what it reports, never both. -/
theorem Visit.step_eq (n : Node) (v : Visit) (c : Command) :
    v.step n c = ⟨v.stopped || c = .stop, v.findings ++ (c.finding? n).toList⟩ := by
  cases c <;> simp [step, Command.finding?]

theorem Visit.foldl_step (n : Node) (commands : List Command) (v : Visit) :
    commands.foldl (step n) v = ⟨v.stopped || decide (.stop ∈ commands),
      v.findings ++ commands.filterMap (Command.finding? n)⟩ := by
  induction commands generalizing v with
  | nil => simp
  | cons c rest ih =>
    rw [List.foldl_cons, ih, step_eq]
    cases hc : c.finding? n <;> simp [hc, eq_comm, Bool.or_assoc]

theorem Visit.after_eq (n : Node) (commands : List Command) :
    after n commands = ⟨decide (.stop ∈ commands), commands.filterMap (Command.finding? n)⟩ := by
  rw [after, foldl_step]
  simp [fresh]

theorem forall₂_reports_iff (commands : List Command) (fs : List Finding) :
    List.Forall₂ (Reports n) (commands.filter (· ≠ .stop)) fs ↔
      fs = commands.filterMap (Command.finding? n) := by
  induction commands generalizing fs with
  | nil => simp
  | cons c rest ih =>
    by_cases hc : c = .stop
    · subst hc
      have hnone : Command.stop.finding? n = none := rfl
      rw [List.filter_cons_of_neg (by simp), List.filterMap_cons_none hnone, ih]
    · obtain ⟨f, hf⟩ : ∃ f, c.finding? n = some f := by
        cases c with
        | stop => exact absurd rfl hc
        | report rule text anchor => exact ⟨_, rfl⟩
        | finding f => exact ⟨f, rfl⟩
      rw [List.filter_cons_of_pos (by simpa using hc), List.filterMap_cons_some hf]
      cases fs with
      | nil => simp
      | cons g gs =>
        rw [List.forall₂_cons, ih, reports_iff, hf, Option.some_inj, List.cons.injEq, eq_comm]

/-- A visit is what it records of its commands. -/
theorem records_iff (commands : List Command) : Records n commands v ↔ v = .after n commands := by
  rw [Visit.after_eq]
  constructor
  · rintro ⟨hstopped, hfindings⟩
    obtain ⟨stopped, findings⟩ := v
    simp only [Visit.mk.injEq]
    exact ⟨Bool.eq_iff_iff.mpr (by simpa using hstopped),
      (forall₂_reports_iff commands findings).mp hfindings⟩
  · rintro rfl
    exact ⟨by simp, (forall₂_reports_iff commands _).mpr rfl⟩

/-! ### Visits in sequence -/

/-- Visits of a walker to nodes in sequence. At each node there are the commands that it issues
there, or the panic that it ends in; from one node to the next, nothing but the walker itself
changes. -/
inductive Walker.Visits (w : Walker σ) : List Node → σ → List (Except Panic Visit) → σ → Prop
  | nil (s : σ) : Visits w [] s [] s
  | recorded {n : Node} {ns : List Node} {s s' s'' : σ} {commands : List Command} {v : Visit}
      {vs : List (Except Panic Visit)} (hcommands : w.commands n s = (.ok commands, s'))
      (hv : Records n commands v) (hrest : Visits w ns s' vs s'') :
      Visits w (n :: ns) s (.ok v :: vs) s''
  | panicked {n : Node} {ns : List Node} {s s' s'' : σ} {p : Panic}
      {vs : List (Except Panic Visit)} (hcommands : w.commands n s = (.error p, s'))
      (hrest : Visits w ns s' vs s'') : Visits w (n :: ns) s (.error p :: vs) s''

theorem Walker.visits_iff (w : Walker σ) (ns : List Node) (s s' : σ)
    (vs : List (Except Panic Visit)) : w.Visits ns s vs s' ↔ w.visitAll ns s = (vs, s') := by
  constructor
  · intro h
    induction h with
    | nil s => rfl
    | recorded hcommands hv _ ih =>
      rw [visitAll, visit, hcommands, (records_iff _).mp hv]
      simp only [ih, Except.map]
    | panicked hcommands _ ih =>
      rw [visitAll, visit, hcommands]
      simp only [ih, Except.map]
  · intro h
    induction ns generalizing s vs with
    | nil =>
      cases h
      exact .nil _
    | cons n ns ih =>
      rcases hcommands : w.commands n s with ⟨p | commands, s₁⟩
      · have hrest := ih s₁ (w.visitAll ns s₁).1
        simp only [visitAll, visit, hcommands, Except.map, Prod.mk.injEq] at h
        obtain ⟨rfl, rfl⟩ := h
        exact .panicked hcommands (hrest rfl)
      · have hrest := ih s₁ (w.visitAll ns s₁).1
        simp only [visitAll, visit, hcommands, Except.map, Prod.mk.injEq] at h
        obtain ⟨rfl, rfl⟩ := h
        exact .recorded hcommands ((records_iff commands).mpr rfl) (hrest rfl)

/-- A visit never fails by what the walker reports. -/
theorem Walker.visit_of_commands {w : Walker σ} {s s' : σ} {commands : List Command}
    (h : w.commands n s = (.ok commands, s')) :
    ∃ v, w.visit n s = (.ok v, s') ∧ Records n commands v := by
  refine ⟨.after n commands, ?_, (records_iff commands).mpr rfl⟩
  rw [visit, h]
  rfl

/-- **What the visits of a walker record.** Whatever commands it issues at the nodes that it is
shown, each visit records those of its own node: whether there was a stop, and the findings of the
others in their order. No command makes a visit fail, and a stop makes no difference to the findings
before it and behind it. A finding has the last of the rules it was given, and panics only when it
is asked for an end that is no offset. -/
theorem Walker.visits_record (w : Walker σ) (ns : List Node) (s : σ) :
    w.Visits ns s (w.visitAll ns s).1 (w.visitAll ns s).2 ∧
      (∀ vs s', w.Visits ns s vs s' → vs = (w.visitAll ns s).1 ∧ s' = (w.visitAll ns s).2) ∧
      (∀ n s commands s', w.commands n s = (.ok commands, s') →
        ∃ v, w.visit n s = (.ok v, s') ∧ Records n commands v) ∧
      (∀ n before after, (Visit.after n (before ++ .stop :: after)).findings =
        (Visit.after n (before ++ after)).findings) ∧
      (∀ (f : Finding) rules,
        f.withRules rules = ⟨rules.getLast?.or f.rule, f.message, f.span⟩) ∧
      ∀ f : Finding, (∃ p, f.finish = .error p) ↔
        ∃ span, f.span = some span ∧ Nat.pow 2 64 - 1 < span.start + span.length := by
  refine ⟨(visits_iff w ns s _ _).mpr rfl, fun vs s' h => ?_,
    fun n s commands s' => visit_of_commands, fun n before after => ?_,
    fun f rules => f.withRules_eq rules, fun f => f.finish_eq_error_iff⟩
  · have hvisits := (visits_iff w ns s s' vs).mp h
    rw [hvisits]
    exact ⟨rfl, rfl⟩
  · have hnone : Command.stop.finding? n = none := rfl
    simp only [Visit.after_eq, List.filterMap_append, List.filterMap_cons_none hnone]

end LintDiscovery
