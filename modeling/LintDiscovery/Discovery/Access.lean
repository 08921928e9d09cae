/-
Questions to a memo.

What has been discovered is looked at through questions: for all groups, for the diagnostics, or for
the descriptors of a kind. A question that is asked before anything has been found sets discovery
off, and is answered with a panic when discovery ends in one. Between questions the policy may be
changed, which has no effect on what has been found.

* `Memo.ask` — one question;
* `Memo.use` — a sequence of questions and changes of the policy.
-/
import LintDiscovery.Discovery.Memo

namespace LintDiscovery

/-- A question about what has been discovered. -/
inductive Question where
  | groups
  | diagnostics
  | ofKind (kind : Kind)
  | syntactic
  | semantic
  deriving DecidableEq, Repr

/-- A part of what has been discovered. -/
inductive View (κ : Type) where
  | groups (groups : Groups κ)
  | diagnostics (diagnostics : List Diagnostic)
  | descriptors (descriptors : List (Descriptor κ))

/-- The part of a discovery that a question is about. -/
def Question.view {κ : Type} (d : Discovery κ) : Question → View κ
  | groups => .groups d.groups
  | diagnostics => .diagnostics d.diagnostics
  | ofKind kind => .descriptors (d.groups.ofKind kind)
  | syntactic => .descriptors (d.groups.ofKind .syntactic)
  | semantic => .descriptors (d.groups.ofKind .semantic)

/-- A use of a memo. -/
inductive Use where
  | ask (question : Question)
  | withPolicy (policy : UnknownKindPolicy)
  deriving DecidableEq, Repr

/-- The question of a use that is one. -/
def Use.question? : Use → Option Question
  | ask question => some question
  | withPolicy _ => none

/-- What comes of uses: the answers in order, and the memo and the host behind them. -/
structure Usage (κ σ : Type) where
  answers : List (Except Panic (View κ))
  memo : Memo κ
  state : σ

namespace Memo

variable {κ σ : Type}

/-- The answer to a question, attempted on a host unless it is known. -/
def ask (m : Memo κ) (h : Host κ σ) (question : Question) (s : σ) :
    Except Panic (View κ) × Memo κ × σ :=
  let (demand, m, s) := m.demand h s
  (demand.result.map fun d => question.view d, m, s)

/-- Uses in sequence. A question that ends in a panic does not keep the next from being asked. -/
def use (h : Host κ σ) : Memo κ → List Use → σ → Usage κ σ
  | m, [], s => ⟨[], m, s⟩
  | m, .ask question :: rest, s =>
    let (answer, m, s) := m.ask h question s
    let usage := use h m rest s
    ⟨answer :: usage.answers, usage.memo, usage.state⟩
  | m, .withPolicy policy :: rest, s => use h (m.withPolicy policy) rest s

end Memo

end LintDiscovery
