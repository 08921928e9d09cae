/-
Construction of walkers.

Whoever traverses a program offers services: its type system, its host, the program and the type
checker. A constructor gets them in a context, together with the argument of the extension; only
extensions of the semantic kind get the type checker. The types of the services are parameters.

* `Descriptor.instantiate?` — the walker of a constructor that answers at once;
* `Descriptor.instantiate` — the same where the constructor is a call, which may panic;
* `noted` — a constructor that also keeps a record of its use.
-/
import LintDiscovery.Host.Basic
import LintDiscovery.Module.Descriptor

namespace LintDiscovery

/-- What is offered to extensions. -/
structure Services (T H P C : Type) where
  typeSystem : T
  host : H
  program : P
  checker : C

/-- What a constructor gets. -/
structure Context (T H P C : Type) where
  typeSystem : T
  args : Option Json
  host : H
  program : P
  checker : Option C

namespace Context

variable {T H P C : Type}

/-- The context of an extension that looks at the syntax alone. -/
def syntactic (args : Option Json) (s : Services T H P C) : Context T H P C :=
  ⟨s.typeSystem, args, s.host, s.program, none⟩

/-- The context of an extension that asks the type checker. -/
def semantic (args : Option Json) (s : Services T H P C) : Context T H P C :=
  ⟨s.typeSystem, args, s.host, s.program, some s.checker⟩

/-- Whether the type checker is there. -/
def isSemantic (c : Context T H P C) : Bool :=
  c.checker.isSome

end Context

namespace Descriptor

variable {κ T H P C ω : Type}

/-- The context for constructors of an extension; custom kinds have none. -/
def context? (d : Descriptor κ) (s : Services T H P C) : Option (Context T H P C) :=
  match d.kind with
  | .syntactic => some (.syntactic d.args s)
  | .semantic => some (.semantic d.args s)
  | .custom _ => none

/-- Constructs a walker, given what it means to use a constructor. -/
def instantiate? (construct : κ → Context T H P C → ω) (d : Descriptor κ)
    (s : Services T H P C) : Option ω := do
  let k ← d.payload.constructor?
  return construct k (← d.context? s)

variable {σ : Type}

/-- Constructs a walker where the use of a constructor is a call. -/
def instantiate (construct : κ → Context T H P C → Call σ ω) (d : Descriptor κ)
    (s : Services T H P C) : Call σ (Option ω) :=
  match d.payload.constructor?, d.context? s with
  | some k, some c => fun state =>
    let (walker, state) := construct k c state
    (walker.map some, state)
  | _, _ => Host.answer none

/-- Constructors that answer at once are calls of a kind. -/
theorem instantiate_answer (construct : κ → Context T H P C → ω) (d : Descriptor κ)
    (s : Services T H P C) :
    d.instantiate (fun k c => (Host.answer (construct k c) : Call σ ω)) s =
      Host.answer (d.instantiate? construct s) := by
  rcases hk : d.payload.constructor? with _ | k
  · simp [instantiate, instantiate?, hk]
  rcases hc : d.context? s with _ | c
  · simp [instantiate, instantiate?, hk, hc]
  · simp only [instantiate, instantiate?, hk, hc]
    rfl

end Descriptor

/-- The use of constructors with a record of it: which constructor, and in what context. -/
def noted {κ T H P C ω σ : Type} (construct : κ → Context T H P C → Call σ ω) (k : κ)
    (c : Context T H P C) : Call (σ × List (κ × Context T H P C)) ω :=
  fun (state, uses) =>
    let (walker, state) := construct k c state
    (walker, (state, uses ++ [(k, c)]))

end LintDiscovery
