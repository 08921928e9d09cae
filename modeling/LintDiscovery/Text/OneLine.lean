/-
Texts made fit for one line of a log.

`oneLine limit` puts a space for every line break and keeps the first `limit` characters, with
three dots behind them when there were more. Counting is by character, so no character is cut.
-/
namespace LintDiscovery.Text

/-- Whether a character ends a line. -/
def isLineBreak (c : Char) : Bool :=
  c == '\n' || c == '\r'

/-- Line breaks become spaces. -/
def unbroken (cs : List Char) : List Char :=
  cs.map fun c => if isLineBreak c then ' ' else c

/-- At most `limit` characters, then three dots when some were left out. -/
def clipped (limit : Nat) (cs : List Char) : List Char :=
  if cs.length ≤ limit then cs else cs.take limit ++ ['.', '.', '.']

/-- A text on one line, cut after `limit` characters. -/
def oneLine (limit : Nat) (s : String) : String :=
  String.ofList (clipped limit (unbroken s.toList))

end LintDiscovery.Text
