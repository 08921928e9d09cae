/-
Places in a text that is being read, and what can be wrong there.

A `Cursor` is the text still to be read together with the position reached: the line, counted from
one, and the bytes passed since that line began. A `Fault` is a reason at a position.

Two positions can be blamed for a fault: the one reached (`Cursor.pos`), or one byte further
(`Cursor.peekPos`) when the character that stands there is the culprit.
-/
namespace LintDiscovery.Json

/-- A line, from one, and the number of bytes passed in it. -/
structure Position where
  line : Nat
  column : Nat
  deriving DecidableEq, Repr

namespace Position

/-- The beginning of a text. -/
def start : Position := ⟨1, 0⟩

/-- The position behind a character. -/
def after (p : Position) (c : Char) : Position :=
  if c = '\n' then ⟨p.line + 1, 0⟩ else ⟨p.line, p.column + c.utf8Size⟩

/-- The position one byte into a character. -/
def intoChar (p : Position) (c : Char) : Position :=
  if c = '\n' then ⟨p.line + 1, 0⟩ else ⟨p.line, p.column + 1⟩

/-- The position behind a text. -/
def afterAll (p : Position) (cs : List Char) : Position :=
  cs.foldl after p

/-- The position a number of bytes further, inside a character where need be; none when the text
has fewer bytes. -/
def afterBytes (p : Position) : Nat → List Char → Option Position
  | 0, _ => some p
  | _ + 1, [] => none
  | n + 1, c :: cs =>
    if n + 1 < c.utf8Size then some ⟨p.line, p.column + (n + 1)⟩
    else afterBytes (p.after c) (n + 1 - c.utf8Size) cs

end Position

/-- What is wrong with a text that is not JSON. -/
inductive Reason where
  | endOfList
  | endOfObject
  | endOfString
  | endOfValue
  | expectedColon
  | expectedListEnd
  | expectedObjectEnd
  | expectedIdent
  | expectedValue
  | invalidEscape
  | invalidNumber
  | numberOutOfRange
  | controlCharacter
  | keyNotString
  | loneSurrogate
  | trailingComma
  | trailingCharacters
  | unfinishedEscape
  | tooDeep
  deriving DecidableEq, Repr

/-- The wording of a reason. -/
def Reason.text : Reason → String
  | .endOfList => "EOF while parsing a list"
  | .endOfObject => "EOF while parsing an object"
  | .endOfString => "EOF while parsing a string"
  | .endOfValue => "EOF while parsing a value"
  | .expectedColon => "expected `:`"
  | .expectedListEnd => "expected `,` or `]`"
  | .expectedObjectEnd => "expected `,` or `\x7d`"
  | .expectedIdent => "expected ident"
  | .expectedValue => "expected value"
  | .invalidEscape => "invalid escape"
  | .invalidNumber => "invalid number"
  | .numberOutOfRange => "number out of range"
  | .controlCharacter => "control character (\\u0000-\\u001F) found while parsing a string"
  | .keyNotString => "key must be a string"
  | .loneSurrogate => "lone leading surrogate in hex escape"
  | .trailingComma => "trailing comma"
  | .trailingCharacters => "trailing characters"
  | .unfinishedEscape => "unexpected end of hex escape"
  | .tooDeep => "recursion limit exceeded"

/-- A reason and the position it is blamed on. -/
structure Fault where
  reason : Reason
  pos : Position
  deriving DecidableEq, Repr

/-- The text still to be read and the position reached. -/
structure Cursor where
  rest : List Char
  pos : Position
  deriving DecidableEq, Repr

/-- Whether a character may stand between the parts of a JSON text. -/
def isSpace (c : Char) : Bool :=
  c == ' ' || c == '\n' || c == '\t' || c == '\r'

namespace Cursor

/-- The beginning of a text. -/
def start (s : String) : Cursor := ⟨s.toList, .start⟩

/-- One byte further, or the end of the text. -/
def peekPos (c : Cursor) : Position :=
  match c.rest with
  | [] => c.pos
  | x :: _ => c.pos.intoChar x

/-- One character further. -/
def advance (c : Cursor) : Cursor :=
  match c.rest with
  | [] => c
  | x :: xs => ⟨xs, c.pos.after x⟩

/-- The cursor behind the characters of a class. -/
def skipWhile (p : Char → Bool) : List Char → Position → Cursor
  | [], pos => ⟨[], pos⟩
  | x :: xs, pos => if p x then skipWhile p xs (pos.after x) else ⟨x :: xs, pos⟩

/-- The cursor behind blanks. -/
def skipSpace (c : Cursor) : Cursor :=
  skipWhile isSpace c.rest c.pos

/-- A fault at the position reached. -/
def fault (c : Cursor) (reason : Reason) : Fault := ⟨reason, c.pos⟩

/-- A fault of the character that comes next. -/
def peekFault (c : Cursor) (reason : Reason) : Fault := ⟨reason, c.peekPos⟩

end Cursor

end LintDiscovery.Json
