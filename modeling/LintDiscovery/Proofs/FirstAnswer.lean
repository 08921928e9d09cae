/-
The first answer of a memo.

Questions to a fresh memo set off one attempt each for as long as the attempts end in panics, and
none of these leaves anything behind. The first attempt that does not is the last one: what it found
is kept, and every question from there on is answered out of it, whatever the policy is by then.

* `Groups.Lists`, `Question.Shows` — what is shown of a discovery for a question;
* `Fruitless` — uses whose questions are all answered with a panic;
* `use_of_found` — a memo that knows the answer asks its host for nothing;
* `use_fresh` — the course of any uses of a fresh memo;
* `first_answer_is_final` — the same on a transcribed host, with what the answers rest on.
-/
import LintDiscovery.Discovery.Access
import LintDiscovery.Proofs.Grouping
import LintDiscovery.Proofs.Transcript
import Mathlib.Data.List.Forall2

namespace LintDiscovery

variable {κ σ : Type}

/-! ### What is shown -/

/-- What groups list under a tag: the members of the group with this tag, or nothing where no group
has it. -/
inductive Groups.Lists (g : Groups κ) (tag : String) : List (Descriptor κ) → Prop
  | group {x : Group κ} (hx : x ∈ g.toList) (htag : x.tag = tag) : g.Lists tag x.members
  | nothing (hnone : ∀ x ∈ g.toList, x.tag ≠ tag) : g.Lists tag []

theorem Groups.lists_iff {g : Groups κ} {tag : String} {ds : List (Descriptor κ)} :
    g.Lists tag ds ↔ ds = g.withTag tag := by
  have hgroup : ∀ x ∈ g.toList, x.tag = tag → x.members = g.withTag tag := by
    rintro x hx rfl
    exact (membersOf_of_mem g.ascending hx).symm
  have hnothing : (∀ x ∈ g.toList, x.tag ≠ tag) → g.withTag tag = [] := by
    intro hnone
    rw [List.eq_nil_iff_forall_not_mem]
    intro d hd
    obtain ⟨x, hx, htag⟩ := exists_of_mem_membersOf hd
    exact hnone x hx htag
  constructor
  · intro h
    cases h with
    | group hx htag => exact hgroup _ hx htag
    | nothing hnone => exact (hnothing hnone).symm
  · rintro rfl
    by_cases h : ∃ x ∈ g.toList, x.tag = tag
    · obtain ⟨x, hx, htag⟩ := h
      rw [← hgroup x hx htag]
      exact .group hx htag
    · have hnone : ∀ x ∈ g.toList, x.tag ≠ tag := fun x hx htag => h ⟨x, hx, htag⟩
      rw [hnothing hnone]
      exact .nothing hnone

/-- What is shown of a discovery for a question: its groups, its diagnostics, or what its groups
list under the tag of a kind, be it named in the question or one of the two known ones. -/
inductive Question.Shows (d : Discovery κ) : Question → View κ → Prop
  | groups : Shows d .groups (.groups d.groups)
  | diagnostics : Shows d .diagnostics (.diagnostics d.diagnostics)
  | ofKind {kind : Kind} {ds : List (Descriptor κ)} (hds : d.groups.Lists kind.tag ds) :
      Shows d (.ofKind kind) (.descriptors ds)
  | syntactic {ds : List (Descriptor κ)} (hds : d.groups.Lists "syntactic-lint" ds) :
      Shows d .syntactic (.descriptors ds)
  | semantic {ds : List (Descriptor κ)} (hds : d.groups.Lists "semantic-lint" ds) :
      Shows d .semantic (.descriptors ds)

/-- There is one answer to a question, the view of the discovery. -/
theorem Question.shows_iff {d : Discovery κ} {question : Question} {v : View κ} :
    question.Shows d v ↔ v = question.view d := by
  constructor
  · intro h
    cases h with
    | groups => rfl
    | diagnostics => rfl
    | ofKind hds => exact congrArg View.descriptors (Groups.lists_iff.mp hds)
    | syntactic hds => exact congrArg View.descriptors (Groups.lists_iff.mp hds)
    | semantic hds => exact congrArg View.descriptors (Groups.lists_iff.mp hds)
  · rintro rfl
    cases question with
    | groups => exact .groups
    | diagnostics => exact .diagnostics
    | ofKind kind => exact .ofKind (Groups.lists_iff.mpr rfl)
    | syntactic => exact .syntactic (Groups.lists_iff.mpr rfl)
    | semantic => exact .semantic (Groups.lists_iff.mpr rfl)

/-- Questions are shown what a discovery has for them, one after the other. -/
theorem Question.forall₂_shows (d : Discovery κ) (questions : List Question) :
    List.Forall₂ (Question.Shows d) questions (questions.map (Question.view d)) :=
  List.forall₂_map_right_iff.mpr (List.forall₂_same.mpr fun _ _ => shows_iff.mpr rfl)

/-! ### Attempts in vain -/

/-- Uses whose questions all set off an attempt that ends in a panic. With the policy and the state
of the host before them go the panics, and the policy and the state behind them. -/
inductive Fruitless (h : Host κ σ) (setting : ExtensionSetting) :
    UnknownKindPolicy → List Use → σ → List Panic → UnknownKindPolicy → σ → Prop
  | nil {policy : UnknownKindPolicy} {s : σ} : Fruitless h setting policy [] s [] policy s
  | withPolicy {policy q r : UnknownKindPolicy} {rest : List Use} {s s' : σ} {panics : List Panic}
      (hrest : Fruitless h setting q rest s panics r s') :
      Fruitless h setting policy (.withPolicy q :: rest) s panics r s'
  | ask {policy r : UnknownKindPolicy} {question : Question} {rest : List Use} {s s₁ s' : σ}
      {a : Attempt κ} {p : Panic} {panics : List Panic}
      (ha : Discovery.attempt setting policy h s = (a, s₁)) (hp : a.result = .error p)
      (hrest : Fruitless h setting policy rest s₁ panics r s') :
      Fruitless h setting policy (.ask question :: rest) s (p :: panics) r s'

namespace Memo

/-- A memo that knows nothing yet, under a policy. -/
def fresh (setting : ExtensionSetting) (policy : UnknownKindPolicy) : Memo κ :=
  (ofSetting setting).withPolicy policy

/-! ### One question -/

/-- A question to a memo that knows the answer. -/
theorem ask_of_found {m : Memo κ} {d : Discovery κ} (hd : m.found = some d) (h : Host κ σ)
    (question : Question) (s : σ) : m.ask h question s = (.ok (question.view d), m, s) := by
  simp only [ask, demand, hd]
  rfl

/-- A question to a fresh memo, when the attempt ends in a panic. -/
theorem ask_fresh_of_error {setting : ExtensionSetting} {policy : UnknownKindPolicy} {h : Host κ σ}
    {s s₁ : σ} {a : Attempt κ} {p : Panic}
    (ha : Discovery.attempt setting policy h s = (a, s₁)) (hp : a.result = .error p)
    (question : Question) :
    (fresh setting policy).ask h question s = (.error p, fresh setting policy, s₁) := by
  simp only [ask, demand, fresh, withPolicy, ofSetting, ha, after, hp]
  rfl

/-- A question to a fresh memo, when the attempt finds something. -/
theorem ask_fresh_of_ok {setting : ExtensionSetting} {policy : UnknownKindPolicy} {h : Host κ σ}
    {s s₁ : σ} {a : Attempt κ} {d : Discovery κ}
    (ha : Discovery.attempt setting policy h s = (a, s₁)) (hd : a.result = .ok d)
    (question : Question) :
    (fresh setting policy).ask h question s =
      (.ok (question.view d), ⟨setting, policy, some d⟩, s₁) := by
  simp only [ask, demand, fresh, withPolicy, ofSetting, ha, after, hd]
  rfl

/-! ### Uses in sequence -/

/-- **A memo that knows the answer asks its host for nothing**: the host stays as it is, the memo
keeps what it has found, and all questions are answered out of that. -/
theorem use_of_found {m : Memo κ} {d : Discovery κ} (hd : m.found = some d) (h : Host κ σ)
    (uses : List Use) (s : σ) :
    (m.use h uses s).answers =
        (uses.filterMap Use.question?).map (fun question => .ok (question.view d)) ∧
      (m.use h uses s).memo.found = some d ∧ (m.use h uses s).state = s := by
  induction uses generalizing m with
  | nil => exact ⟨rfl, hd, rfl⟩
  | cons u rest ih =>
    cases u with
    | ask question =>
      obtain ⟨hanswers, hfound, hstate⟩ := ih hd
      simp only [use, ask_of_found hd]
      refine ⟨?_, hfound, hstate⟩
      rw [hanswers]
      rfl
    | withPolicy policy => exact ih (m := m.withPolicy policy) hd

/-- Fruitless uses leave a fresh memo fresh. -/
theorem use_of_fruitless {h : Host κ σ} {setting : ExtensionSetting} {policy r : UnknownKindPolicy}
    {before : List Use} {s s' : σ} {panics : List Panic}
    (hf : Fruitless h setting policy before s panics r s') (after : List Use) :
    (fresh setting policy).use h (before ++ after) s =
      let usage := (fresh setting r).use h after s'
      ⟨panics.map .error ++ usage.answers, usage.memo, usage.state⟩ := by
  induction hf with
  | nil => rfl
  | withPolicy _ ih => exact ih
  | ask ha hp _ ih =>
    simp only [List.cons_append, use, ask_fresh_of_error ha hp, ih]
    rfl

/-- The uses of a fresh memo are fruitless, or they are so up to a question that gets an answer. -/
theorem use_fresh (h : Host κ σ) (setting : ExtensionSetting) (policy : UnknownKindPolicy)
    (uses : List Use) (s : σ) :
    (∃ panics r s', Fruitless h setting policy uses s panics r s') ∨
      ∃ before question after panics r s₁ d,
        uses = before ++ .ask question :: after ∧
        Fruitless h setting policy before s panics r s₁ ∧
        (Discovery.attempt setting r h s₁).1.result = .ok d := by
  -- a panic leaves the memo as it is, but under another state of the host
  induction uses generalizing policy s with
  | nil => exact .inl ⟨[], policy, s, .nil⟩
  | cons u rest ih =>
    cases u with
    | withPolicy q =>
      rcases ih q s with
        ⟨panics, r, s', hf⟩ | ⟨before, question, after, panics, r, s₁, d, rfl, hf, hd⟩
      · exact .inl ⟨panics, r, s', .withPolicy hf⟩
      · exact .inr ⟨.withPolicy q :: before, question, after, panics, r, s₁, d, rfl,
          .withPolicy hf, hd⟩
    | ask question =>
      rcases ha : Discovery.attempt setting policy h s with ⟨a, s₁⟩
      rcases hresult : a.result with p | d
      · rcases ih policy s₁ with
          ⟨panics, r, s', hf⟩ | ⟨before, question', after, panics, r, s₂, d, rfl, hf, hd⟩
        · exact .inl ⟨p :: panics, r, s', .ask ha hresult hf⟩
        · exact .inr ⟨.ask question :: before, question', after, p :: panics, r, s₂, d, rfl,
            .ask ha hresult hf, hd⟩
      · exact .inr ⟨[], question, rest, [], policy, s, d, rfl, .nil, by rw [ha]; exact hresult⟩

/-- **The first answer is final.** Uses of a fresh memo either are fruitless and leave it fresh, or
there is a first question that is answered. The attempt for that question asks for all the names,
and comes to the same given its own part `t₂` of the transcript alone. What it finds under the
policy of the moment is kept, nothing is asked of the host behind it, and all questions from there
on are shown what it has for them. -/
theorem first_answer_is_final (h : Host κ σ) (setting : ExtensionSetting)
    (policy : UnknownKindPolicy) (uses : List Use) (s : σ) :
    let usage := (fresh setting policy).use h.transcribed uses (s, [])
    (∃ panics r, Fruitless h.transcribed setting policy uses (s, []) panics r usage.state ∧
        usage.answers = panics.map .error ∧ usage.memo = fresh setting r) ∨
      ∃ before question after panics r s₁ t₁ t₂ a d views,
        uses = before ++ .ask question :: after ∧
        Fruitless h.transcribed setting policy before (s, []) panics r (s₁, t₁) ∧
        (fresh setting policy).use h.transcribed before (s, []) =
          ⟨panics.map .error, fresh setting r, (s₁, t₁)⟩ ∧
        Discovery.attempt setting r h.transcribed (s₁, t₁) = (a, usage.state) ∧
        a.result = .ok d ∧
        usage.state.2 = t₁ ++ t₂ ∧ t₂.filterMap Exchange.name? = setting.names ∧
        Discovery.attempt setting r Host.replay t₂ = (a, []) ∧
        usage.memo.found = some d ∧
        usage.answers = panics.map .error ++ views.map .ok ∧
        List.Forall₂ (Question.Shows d) (question :: after.filterMap Use.question?) views := by
  rcases use_fresh h.transcribed setting policy uses (s, []) with
    ⟨panics, r, s', hf⟩ | ⟨before, question, after, panics, r, ⟨s₁, t₁⟩, d, rfl, hf, hd⟩
  · have huse := use_of_fruitless hf []
    rw [List.append_nil] at huse
    rw [huse]
    exact .inl ⟨panics, r, hf, List.append_nil _, rfl⟩
  · have hbefore := use_of_fruitless hf []
    rw [List.append_nil] at hbefore
    -- the attempt that succeeds, on the host and on its part of the transcript
    obtain ⟨t₂, ht, hnames⟩ := Discovery.exists_exchanges_attempt setting r h s₁
    have hnoted := ht.noted t₁
    rw [hnoted] at hd
    have hask := ask_fresh_of_ok hnoted hd question
    obtain ⟨hanswers, hfound, hstate⟩ := use_of_found (κ := κ) (m := ⟨setting, r, some d⟩) rfl
      h.transcribed after ((Discovery.attempt setting r h s₁).2, t₁ ++ t₂)
    have hreplayed := ht.replayed []
    rw [List.append_nil] at hreplayed
    rw [use_of_fruitless hf (.ask question :: after)]
    simp only [use, hask]
    refine .inr ⟨before, question, after, panics, r, s₁, t₁, t₂, _, d, _, rfl, hf, ?_, ?_, hd, ?_,
      ?_, hreplayed, hfound, ?_, Question.forall₂_shows d _⟩
    · rw [hbefore]
      simp [use]
    · rw [hstate]
      exact hnoted
    · rw [hstate]
    · rw [hnames]
      exact (LoadPhase.asked_run h setting.names s₁).2 (Attempt.result_eq_ok_iff.mp hd).1
    · rw [hanswers, List.map_map, List.map_cons]
      rfl

end Memo

end LintDiscovery
