/-
Kinds of extensions.

A kind tag is any text. Two tags are known, and exports of these kinds must be constructible; every
other tag names a custom kind. `tag_ofTag` says that no two tags name the same kind.
-/
namespace LintDiscovery

/-- The kind of an extension. -/
inductive Kind where
  | syntactic
  | semantic
  | custom (tag : String)
  deriving DecidableEq, Repr

namespace Kind

/-- The tag of extensions that look at the syntax tree alone. -/
def syntacticTag : String := "syntactic-lint"

/-- The tag of extensions that also ask the type checker. -/
def semanticTag : String := "semantic-lint"

/-- The tags whose exports must be constructible. -/
def knownTags : List String := [syntacticTag, semanticTag]

/-- The kind that a tag names; tags match exactly. -/
def ofTag (tag : String) : Kind :=
  if tag = syntacticTag then .syntactic
  else if tag = semanticTag then .semantic
  else .custom tag

/-- The tag of a kind. -/
def tag : Kind → String
  | .syntactic => syntacticTag
  | .semantic => semanticTag
  | .custom tag => tag

/-- Whether exports of this kind must be constructible. -/
def isKnown : Kind → Bool
  | .custom _ => false
  | _ => true

/-- A known kind by its name; all custom kinds have one label. -/
def label : Kind → String
  | .syntactic => "SyntacticLint"
  | .semantic => "SemanticLint"
  | .custom _ => "Custom"

/-- The kind that a tag names has this tag. -/
theorem tag_ofTag (tag : String) : (ofTag tag).tag = tag := by
  unfold ofTag
  split
  · simp [Kind.tag, *]
  · split
    · simp [Kind.tag, *]
    · rfl

/-- A kind is known exactly when its tag is, for kinds that tags name. -/
theorem isKnown_ofTag (tag : String) : (ofTag tag).isKnown = knownTags.contains tag := by
  unfold ofTag
  split
  · simp [isKnown, knownTags, *]
  · split
    · simp [isKnown, knownTags, *]
    · simp [isKnown, knownTags, *]

/-- The place of a kind among the kinds: the known ones first, custom kinds by their tags. -/
def rank : Kind → Nat
  | .syntactic => 0
  | .semantic => 1
  | .custom _ => 2

/-- Whether a kind comes no later than another. -/
def le (a b : Kind) : Bool :=
  a.rank < b.rank || (a.rank == b.rank && a.tag ≤ b.tag)

/-- The kinds in order, each once. -/
def sorted (kinds : List Kind) : List Kind :=
  (kinds.mergeSort le).eraseReps

end Kind

/-- What happens to exports of custom kinds: they are passed through as they are, or rejected. -/
inductive UnknownKindPolicy where
  | passThrough
  | reject
  deriving DecidableEq, Repr, Inhabited

namespace UnknownKindPolicy

/-- The name of a policy in a configuration. -/
def name : UnknownKindPolicy → String
  | .passThrough => "passThrough"
  | .reject => "reject"

/-- The policy of that name. -/
def ofName? (name : String) : Option UnknownKindPolicy :=
  if name = "passThrough" then some .passThrough
  else if name = "reject" then some .reject
  else none

/-- A policy is found by its name. -/
theorem ofName?_name (p : UnknownKindPolicy) : ofName? p.name = some p := by
  cases p <;> rfl

end UnknownKindPolicy

end LintDiscovery
