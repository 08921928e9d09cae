/-
Message templates.

A template is text with numbered slots: one or more ASCII digits in braces. `pieces` divides a
template into single characters and slots, and `render` puts the arguments into the slots. Slots
never overlap, a slot without an argument stays as it is written, and what an argument brings in is
not looked at again.
-/
namespace LintDiscovery.Template

/-- A piece of a template: a character that stands for itself, or a slot with its digits. -/
inductive Piece where
  | char (c : Char)
  | slot (digits : List Char)
  deriving DecidableEq, Repr

/-- The number that decimal digits denote. -/
def number (digits : List Char) : Nat :=
  digits.foldl (fun n d => 10 * n + (d.toNat - '0'.toNat)) 0

/-- A slot as it is written. -/
def written (digits : List Char) : List Char :=
  '\x7b' :: digits ++ ['\x7d']

/-- An open brace and digits that make no slot. -/
def unclosed (digits : List Char) : List Piece :=
  ('\x7b' :: digits).map .char

/-- Divides a template into pieces. `opened` holds the digits read since an open brace that may
still begin a slot, last first. -/
def piecesFrom : (opened : Option (List Char)) → List Char → List Piece
  | none, [] => []
  | some digits, [] => unclosed digits.reverse
  | none, c :: cs =>
    if c = '\x7b' then piecesFrom (some []) cs else .char c :: piecesFrom none cs
  | some digits, c :: cs =>
    if c.isDigit then piecesFrom (some (c :: digits)) cs
    else if c = '\x7d' ∧ digits ≠ [] then .slot digits.reverse :: piecesFrom none cs
    else if c = '\x7b' then unclosed digits.reverse ++ piecesFrom (some []) cs
    else unclosed digits.reverse ++ .char c :: piecesFrom none cs

/-- The pieces of a template. -/
def pieces (template : String) : List Piece :=
  piecesFrom none template.toList

/-- What a piece becomes, given the arguments. -/
def Piece.text (args : List String) : Piece → List Char
  | .char c => [c]
  | .slot digits =>
    match args[number digits]? with
    | some arg => arg.toList
    | none => written digits

/-- A template with its slots filled. -/
def render (template : String) (args : List String) : String :=
  String.ofList ((pieces template).flatMap (Piece.text args))

end LintDiscovery.Template
