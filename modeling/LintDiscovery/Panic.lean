/-
Panics.

A call of a host or a walker may end in a panic instead of an answer. What is left of it is its
payload: a text, or something that is not a text.
-/
namespace LintDiscovery

/-- The payload of a panic. -/
inductive Panic where
  | text (payload : String)
  | other
  deriving DecidableEq, Repr

/-- The text of a payload; what is not a text has a fixed one. -/
def Panic.message : Panic → String
  | .text payload => payload
  | .other => "non-string panic payload"

end LintDiscovery
