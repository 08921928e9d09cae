/-
Walkers given as tables.

A rule names a kind of node, or every kind, and the actions to take there. At a node all rules that
apply take their actions in order; an action may panic, which ends the visit.
-/
import LintDiscovery.Visit.Basic

namespace LintDiscovery

/-- An action of a rule. -/
inductive Action where
  | command (c : Command)
  | retag (first second message : String)
  | panic (message : String)
  deriving DecidableEq, Repr

/-- The command of an action at a node. -/
def Action.run (n : Node) : Action → Except Panic Command
  | command c => .ok c
  | retag first second message =>
    .ok (.finding (((Finding.mk none message (some n.span)).withRule first).withRule second))
  | panic message => .error (.text message)

/-- A rule of a table. -/
structure Rule where
  kind : String
  actions : List Action
  deriving DecidableEq, Repr

/-- The kind of rules that apply to every node. -/
def Rule.anyKind : String := "*"

/-- Whether a rule applies to a node. -/
def Rule.appliesTo (r : Rule) (n : Node) : Bool :=
  r.kind == Rule.anyKind || r.kind == n.kind

/-- A walker that does what a table of rules says. -/
def Walker.ofRules (rules : List Rule) : Walker Unit :=
  .ofFunction fun n => ((rules.filter (·.appliesTo n)).flatMap Rule.actions).mapM (Action.run n)

end LintDiscovery
