/-
Paths.

A path is a text. Its pieces are what stands between the slashes; empty pieces and single dots are
blank and name nothing. Two views go with the text:

* `components` — what the path names, one by one: the root, a leading dot, names and parents;
* `parent?` — the text up to the last component, with the blank pieces before it gone.

`join` works on the text alone and never normalizes it.
-/
namespace LintDiscovery

/-- A path, by its text. -/
structure Path where
  text : String
  deriving DecidableEq, Repr

namespace Path

/-- One step of a path. -/
inductive Component where
  | root
  | here
  | up
  | name (text : String)
  deriving DecidableEq, Repr

/-- Splits a text at its slashes; there is always one piece more than slashes. -/
def piecesOf : List Char → List (List Char)
  | [] => [[]]
  | c :: cs =>
    if c = '/' then [] :: piecesOf cs
    else
      match piecesOf cs with
      | p :: ps => (c :: p) :: ps
      | [] => [[c]]

/-- Puts slashes between pieces. -/
def joinPieces : List (List Char) → List Char
  | [] => []
  | [p] => p
  | p :: ps => p ++ '/' :: joinPieces ps

/-- Whether a piece names nothing. -/
def isBlankPiece (p : List Char) : Bool :=
  p.isEmpty || p == ['.']

/-- Divides a text into its head, which is the root slash or a leading dot, and its body. -/
def splitHead : List Char → List Char × List Char
  | '/' :: cs => (['/'], cs)
  | ['.'] => (['.'], [])
  | '.' :: '/' :: cs => (['.'], '/' :: cs)
  | cs => ([], cs)

/-- The component a piece names. -/
def component? (p : List Char) : Option Component :=
  if isBlankPiece p then none
  else if p = ['.', '.'] then some .up
  else some (.name (String.ofList p))

/-- The component the head stands for. -/
def headComponents : List Char → List Component
  | ['/'] => [.root]
  | ['.'] => [.here]
  | _ => []

/-- What the path names, step by step. -/
def components (p : Path) : List Component :=
  let (head, body) := splitHead p.text.toList
  headComponents head ++ (piecesOf body).filterMap component?

/-- Whether a path starts at the root. -/
def isAbsolute (p : Path) : Bool :=
  p.text.toList.head? == some '/'

/-- Two paths with the same components name the same place. -/
def same (p q : Path) : Bool :=
  p.components == q.components

/-- A path below another. An absolute one stands alone, a relative one is appended behind a
slash. -/
def join (base p : Path) : Path :=
  if p.isAbsolute then p
  else
    let cs := base.text.toList
    if cs.isEmpty || cs.getLast? == some '/' then ⟨base.text ++ p.text⟩
    else ⟨base.text ++ "/" ++ p.text⟩

/-- Pieces without the blank ones at the end. -/
def withoutBlankEnd (pieces : List (List Char)) : List (List Char) :=
  (pieces.reverse.dropWhile isBlankPiece).reverse

/-- The path without its last component; a root and an empty path have no parent. -/
def parent? (p : Path) : Option Path :=
  let (head, body) := splitHead p.text.toList
  match withoutBlankEnd (piecesOf body) with
  | [] => if head = ['.'] then some ⟨""⟩ else none
  | pieces => some ⟨String.ofList (head ++ joinPieces (withoutBlankEnd pieces.dropLast))⟩

end Path

end LintDiscovery
