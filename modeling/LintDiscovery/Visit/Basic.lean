/-
Visits of walkers to nodes.

A walker is shown one node after the other and issues commands: to stop, which spares the children
of the node, and to report findings. `Visit` is what one visit amounts to. The commands of a node
are carried out in order, starting from a fresh visit, so nothing carries over to the next node.

* `Visit.after` — a visit after commands;
* `Walker.visit`, `Walker.visitAll` — what a walker does at a node, and at nodes in sequence.
-/
import LintDiscovery.Visit.Span

namespace LintDiscovery

/-- A node of a syntax tree, as far as walkers see it. -/
structure Node where
  kind : String
  span : Span
  deriving DecidableEq, Repr

/-- Something a walker found. The rule tells the rules of one extension apart. -/
structure Finding where
  rule : Option String
  message : String
  span : Option Span
  deriving DecidableEq, Repr

namespace Finding

/-- A finding that has no place in the source. -/
def ofMessage (message : String) : Finding :=
  ⟨none, message, none⟩

/-- A finding at a node. -/
def atNode (message : String) (n : Node) : Finding :=
  ⟨none, message, some n.span⟩

/-- A finding at a span, given by where it starts and how long it is. -/
def atSpan (message : String) (start length : Nat) : Finding :=
  ⟨none, message, some ⟨start, length⟩⟩

/-- A finding with another rule. -/
def withRule (rule : String) (f : Finding) : Finding :=
  ⟨some rule, f.message, f.span⟩

/-- A finding that is given rules one after the other. -/
def withRules (rules : List String) (f : Finding) : Finding :=
  rules.foldl (fun f rule => f.withRule rule) f

/-- The offset behind a finding, if it has a place in the source. -/
def finish (f : Finding) : Except Panic (Option Nat) :=
  match f.span with
  | none => .ok none
  | some s => s.finish.map some

end Finding

/-- Where a finding is reported: nowhere, at the node, or at a span of its own. Of another node than
the one that is visited, a finding is told the span. -/
inductive Anchor where
  | nowhere
  | node
  | span (s : Span)
  deriving DecidableEq, Repr

/-- The span of an anchor at a node. -/
def Anchor.span? (n : Node) : Anchor → Option Span
  | .nowhere => none
  | .node => some n.span
  | .span s => some s

/-- What a walker can tell the driver of a traversal. -/
inductive Command where
  | stop
  | report (rule : Option String) (message : String) (anchor : Anchor)
  | finding (f : Finding)
  deriving DecidableEq, Repr

namespace Command

/-- The finding that a command reports at a node. -/
def finding? (n : Node) : Command → Option Finding
  | stop => none
  | report rule message anchor => some ⟨rule, message, anchor.span? n⟩
  | finding f => some f

end Command

/-- What a visit to a node amounts to. -/
structure Visit where
  stopped : Bool
  findings : List Finding
  deriving DecidableEq, Repr

namespace Visit

/-- A visit without commands. -/
def fresh : Visit := ⟨false, []⟩

/-- A visit after one more command. -/
def step (n : Node) (v : Visit) : Command → Visit
  | .stop => ⟨true, v.findings⟩
  | c => ⟨v.stopped, v.findings ++ (c.finding? n).toList⟩

/-- A visit after commands. -/
def after (n : Node) (commands : List Command) : Visit :=
  commands.foldl (step n) fresh

end Visit

/-- A walker with a state of its own; a visit may end in a panic. -/
structure Walker (σ : Type) where
  commands : Node → σ → Except Panic (List Command) × σ

namespace Walker

variable {σ : Type}

/-- A visit to a node, and the state behind it. -/
def visit (w : Walker σ) (n : Node) (s : σ) : Except Panic Visit × σ :=
  let (result, s) := w.commands n s
  (result.map (Visit.after n), s)

/-- Visits to nodes in sequence. A panic ends one visit only. -/
def visitAll (w : Walker σ) : List Node → σ → List (Except Panic Visit) × σ
  | [], s => ([], s)
  | n :: ns, s =>
    let (v, s) := w.visit n s
    let (vs, s) := w.visitAll ns s
    (v :: vs, s)

/-- A walker without a state. -/
def ofFunction (commands : Node → Except Panic (List Command)) : Walker Unit :=
  ⟨fun n s => (commands n, s)⟩

end Walker

end LintDiscovery
