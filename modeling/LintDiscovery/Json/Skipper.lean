/-
Values read from a text and ignored.

`skipValue` passes over one value without building it. The open brackets are kept in a list, so
they may nest as deep as the text is long. What is ignored is also checked less: a lone half of a
pair of code units is fine, and no number is too large.
-/
import LintDiscovery.Json.Literal

namespace LintDiscovery.Json

/-- An open bracket. -/
inductive Bracket where
  | list
  | object
  deriving DecidableEq, Repr

/-- Whether a character closes the bracket. -/
def Bracket.closedBy : Bracket → Char → Bool
  | .list, c => c == ']'
  | .object, c => c == '\x7d'

/-- The bracket that a text opens with. -/
def Bracket.opened? : List Char → Option Bracket
  | '[' :: _ => some .list
  | '\x7b' :: _ => some .object
  | _ => none

/-- The text ends while the bracket is open. -/
def Bracket.ended : Bracket → Reason
  | .list => .endOfList
  | .object => .endOfObject

/-- Neither a comma nor the closing bracket follows a member. -/
def Bracket.unended : Bracket → Reason
  | .list => .expectedListEnd
  | .object => .expectedObjectEnd

/-! ### Numbers -/

/-- Passes over digits. -/
def skipDigits (c : Cursor) : Cursor :=
  Cursor.skipWhile isDigit c.rest c.pos

/-- Passes over digits, of which there has to be one. -/
def skipSomeDigits (c : Cursor) : Except Fault Cursor :=
  match c.rest with
  | [] => .error (c.fault .invalidNumber)
  | x :: _ => if isDigit x then .ok (skipDigits c) else .error (c.peekFault .invalidNumber)

/-- Passes over an exponent, if there is one. -/
def skipExponent (c : Cursor) : Except Fault Cursor :=
  match c.rest with
  | 'e' :: _ | 'E' :: _ =>
    let c := c.advance
    match c.rest with
    | '+' :: _ | '-' :: _ => skipSomeDigits c.advance
    | _ => skipSomeDigits c
  | _ => .ok c

/-- Passes over a fraction and an exponent, as far as they are there. -/
def skipTail (c : Cursor) : Except Fault Cursor :=
  match c.rest with
  | '.' :: _ => do skipExponent (← skipSomeDigits c.advance)
  | _ => skipExponent c

/-- Passes over a number whose sign has been passed. -/
def skipNumber (c : Cursor) : Except Fault Cursor :=
  match c.rest with
  | [] => .error (c.fault .invalidNumber)
  | '0' :: _ =>
    let c := c.advance
    match c.rest with
    | x :: _ => if isDigit x then .error (c.peekFault .invalidNumber) else skipTail c
    | [] => .ok c
  | x :: _ => if isDigit x then skipTail (skipDigits c) else .error (c.peekFault .invalidNumber)

/-! ### Strings -/

/-- Passes over an escape whose backslash has been passed. -/
def skipEscape (c : Cursor) : Except Fault Cursor :=
  match c.rest with
  | [] => .error (c.fault .endOfString)
  | 'u' :: _ => do return (← readHex c.advance).2
  | x :: _ => if (escaped? x).isSome then .ok c.advance else .error (c.peekFault .invalidEscape)

/-- Passes over the characters of a string and its closing quote. Each round passes at least one
character, and the rounds are counted by those that were there at first. -/
def skipCharsFrom : (bound : List Char) → Cursor → Except Fault Cursor
  | [], c => .error (c.fault .endOfString)
  | _ :: bound, c =>
    match c.rest with
    | [] => .error (c.fault .endOfString)
    | '"' :: _ => .ok c.advance
    | '\\' :: _ =>
      match skipEscape c.advance with
      | .ok c => skipCharsFrom bound c
      | .error f => .error f
    | x :: _ =>
      if x.toNat < 0x20 then .error (c.fault .controlCharacter) else skipCharsFrom bound c.advance

/-- Passes over a string whose opening quote has been passed. -/
def skipString (c : Cursor) : Except Fault Cursor :=
  skipCharsFrom c.rest c

/-! ### Values -/

/-- Passes over the key and the colon of a field. -/
def skipKey (c : Cursor) : Except Fault Cursor :=
  let c := c.skipSpace
  match c.rest with
  | [] => .error (c.fault .endOfObject)
  | '"' :: _ => do
    let c := (← skipString c.advance).skipSpace
    match c.rest with
    | [] => .error (c.fault .endOfObject)
    | ':' :: _ => return c.advance
    | _ => .error (c.peekFault .expectedColon)
  | _ => .error (c.peekFault .keyNotString)

/-- Passes over what comes before a member's value. -/
def skipToValue : Bracket → Cursor → Except Fault Cursor
  | .list, c => .ok c
  | .object, c => skipKey c

/-- Passes over a value that is not in brackets. -/
def skipPlain (c : Cursor) : Except Fault Cursor :=
  match c.rest with
  | [] => .error (c.fault .endOfValue)
  | 'n' :: _ => readWord ['u', 'l', 'l'] c.advance
  | 't' :: _ => readWord ['r', 'u', 'e'] c.advance
  | 'f' :: _ => readWord ['a', 'l', 's', 'e'] c.advance
  | '-' :: _ => skipNumber c.advance
  | '"' :: _ => skipString c.advance
  | x :: _ => if isDigit x then skipNumber c else .error (c.peekFault .expectedValue)

/-- Passes over what comes behind an opening bracket: what stands before the first value, or, where
there is none, the bracket that closes it. -/
def skipOpening (b : Bracket) (c : Cursor) : Except Fault (Bool × Cursor) :=
  let c := c.skipSpace
  match c.rest with
  | [] => .error (c.fault b.ended)
  | x :: _ =>
    if b.closedBy x then .ok (false, c.advance) else do return (true, ← skipToValue b c)

mutual

/-- Passes over a value and over the rest of the open brackets around it. Each round passes at least
one character, and the rounds are counted by those that were there at first. -/
def skipValueFrom : (bound : List Char) → List Bracket → Cursor → Except Fault Cursor
  | [], _, c => .error (c.fault .endOfValue)
  | _ :: bound, outer, c =>
    let c := c.skipSpace
    match Bracket.opened? c.rest with
    | none =>
      match skipPlain c with
      | .ok c => skipRestFrom bound outer c
      | .error f => .error f
    | some b =>
      match skipOpening b c.advance with
      | .ok (true, c) => skipValueFrom bound (b :: outer) c
      | .ok (false, c) => skipRestFrom bound outer c
      | .error f => .error f

/-- Behind a value: passes over the rest of the open brackets. -/
def skipRestFrom : (bound : List Char) → List Bracket → Cursor → Except Fault Cursor
  | _, [], c => .ok c
  | [], b :: _, c => .error (c.fault b.ended)
  | _ :: bound, b :: outer, c =>
    let c := c.skipSpace
    match c.rest with
    | [] => .error (c.fault b.ended)
    | x :: _ =>
      if x = ',' then
        match skipToValue b c.advance with
        | .ok c => skipValueFrom bound (b :: outer) c
        | .error f => .error f
      else if b.closedBy x then skipRestFrom bound outer c.advance
      else .error (c.peekFault b.unended)

end

/-- Passes over one value. -/
def skipValue (c : Cursor) : Except Fault Cursor :=
  skipValueFrom c.rest [] c

end LintDiscovery.Json
