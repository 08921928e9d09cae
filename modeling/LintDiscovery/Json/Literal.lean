/-
The words, numbers and strings of JSON, read from a cursor.

* `readWord` — the rest of `null`, `true` or `false`;
* `readNumber` — a number that is kept;
* `readString` — a string that is kept, escapes resolved.

A significand holds as many digits as fit into 64 bits. Digits of the whole part that no longer fit
raise the exponent instead, and such digits of the fraction are dropped.
-/
import LintDiscovery.Json.Basic
import LintDiscovery.Json.Cursor

namespace LintDiscovery.Json

/-! ### Words -/

/-- Passes over exactly the given letters. -/
def readWord : List Char → Cursor → Except Fault Cursor
  | [], c => .ok c
  | x :: xs, c =>
    match c.rest with
    | [] => .error (c.fault .endOfValue)
    | y :: _ => if x = y then readWord xs c.advance else .error (c.peekFault .expectedIdent)

/-! ### Numbers -/

/-- The largest whole number that is kept as such. -/
def maxInteger : Nat := Nat.pow 2 64 - 1

/-- The largest exponent that is counted out. -/
def maxExponent : Nat := Nat.pow 2 31 - 1

/-- Whether a character is an ASCII digit. -/
def isDigit (c : Char) : Bool := '0' ≤ c && c ≤ '9'

/-- The value of an ASCII digit. -/
def digitValue (c : Char) : Nat := c.toNat - '0'.toNat

/-- The digits at a cursor and the cursor behind them. -/
def takeDigits (c : Cursor) : List Char × Cursor :=
  (c.rest.takeWhile isDigit, Cursor.skipWhile isDigit c.rest c.pos)

/-- Appends digits to a number as long as the result stays within a limit; the second part is the
digits from the first one that does not fit. -/
def absorb (limit : Nat) : Nat → List Char → Nat × List Char
  | n, [] => (n, [])
  | n, d :: ds =>
    if n * 10 + digitValue d ≤ limit then absorb limit (n * 10 + digitValue d) ds else (n, d :: ds)

/-- The numeral `significand · 10 ^ exponent` as a double. -/
def doubleAt (c : Cursor) (negative : Bool) (significand : Nat) (exponent : Int) :
    Except Fault (Number × Cursor) :=
  match Double.ofDecimal negative significand exponent with
  | some d => .ok (.double d, c)
  | none => .error (c.fault .numberOutOfRange)

/-- Reads an exponent, the cursor standing on its letter. An exponent that cannot be counted out
makes zero of a number that is zero or small, and is out of range otherwise. -/
def readExponent (negative : Bool) (significand : Nat) (exponent : Int) (c : Cursor) :
    Except Fault (Number × Cursor) :=
  let c := c.advance
  let (small, c) :=
    match c.rest with
    | '+' :: _ => (false, c.advance)
    | '-' :: _ => (true, c.advance)
    | _ => (false, c)
  match c.rest with
  | [] => .error (c.fault .endOfValue)
  | x :: _ =>
    if isDigit x then
      let (ds, after) := takeDigits c
      match absorb maxExponent 0 ds with
      | (e, []) =>
        doubleAt after negative significand (if small then exponent - e else exponent + e)
      | (_, left) =>
        if significand ≠ 0 ∧ !small then
          .error ⟨.numberOutOfRange, c.pos.afterAll (ds.take (ds.length - left.length + 1))⟩
        else .ok (.double (.zero negative), after)
    else .error (c.peekFault .invalidNumber)

/-- Reads a fraction, the cursor standing on its point, and what may follow it. -/
def readFraction (negative : Bool) (significand : Nat) (exponent : Int) (c : Cursor) :
    Except Fault (Number × Cursor) :=
  let c := c.advance
  let (ds, after) := takeDigits c
  if ds.isEmpty then
    .error (if c.rest.isEmpty then c.fault .endOfValue else c.peekFault .invalidNumber)
  else
    let (significand, left) := absorb maxInteger significand ds
    let exponent := exponent - (ds.length - left.length : Nat)
    match after.rest with
    | 'e' :: _ | 'E' :: _ => readExponent negative significand exponent after
    | _ => doubleAt after negative significand exponent

/-- A whole numeral without point and exponent. Minus zero and numbers below the least whole number
are doubles. -/
def wholeNumber (c : Cursor) (negative : Bool) (significand : Nat) :
    Except Fault (Number × Cursor) :=
  if !negative then .ok (.integer significand, c)
  else if 0 < significand ∧ significand ≤ Nat.pow 2 63 then .ok (.integer (-significand), c)
  else doubleAt c true significand 0

/-- Reads what may follow the whole part of a number: `extra` digits of it did not fit. -/
def readTail (negative : Bool) (significand extra : Nat) (c : Cursor) :
    Except Fault (Number × Cursor) :=
  match c.rest with
  | '.' :: _ => readFraction negative significand extra c
  | 'e' :: _ | 'E' :: _ => readExponent negative significand extra c
  | _ =>
    if extra = 0 then wholeNumber c negative significand
    else doubleAt c negative significand extra

/-- Reads a number whose sign has been passed. -/
def readNumber (negative : Bool) (c : Cursor) : Except Fault (Number × Cursor) :=
  match c.rest with
  | [] => .error (c.fault .endOfValue)
  | '0' :: _ =>
    let c := c.advance
    match c.rest with
    | x :: _ => if isDigit x then .error (c.peekFault .invalidNumber) else readTail negative 0 0 c
    | [] => readTail negative 0 0 c
  | x :: _ =>
    if isDigit x then
      let (ds, after) := takeDigits c
      let (significand, left) := absorb maxInteger 0 ds
      readTail negative significand left.length after
    else .error (c.peekFault .invalidNumber)

/-! ### Strings -/

/-- The value of a hexadecimal digit of either case. -/
def hexValue? (c : Char) : Option Nat :=
  if isDigit c then some (digitValue c)
  else if 'a' ≤ c ∧ c ≤ 'f' then some (c.toNat - 'a'.toNat + 10)
  else if 'A' ≤ c ∧ c ≤ 'F' then some (c.toNat - 'A'.toNat + 10)
  else none

/-- The value of four hexadecimal digits. -/
def hexValue4? (a b c d : Char) : Option Nat := do
  return (((← hexValue? a) * 16 + (← hexValue? b)) * 16 + (← hexValue? c)) * 16 + (← hexValue? d)

/-- Reads four hexadecimal digits. Four bytes are taken before they are looked at. -/
def readHex (c : Cursor) : Except Fault (Nat × Cursor) :=
  let failure : Fault :=
    match c.pos.afterBytes 4 c.rest with
    | some pos => ⟨.invalidEscape, pos⟩
    | none => ⟨.endOfString, c.pos.afterAll c.rest⟩
  match c.rest with
  | x :: y :: z :: w :: _ =>
    match hexValue4? x y z w with
    | some n => .ok (n, c.advance.advance.advance.advance)
    | none => .error failure
  | _ => .error failure

/-- Passes over the character that has to follow the first half of a pair. -/
def readPairing (x : Char) (c : Cursor) : Except Fault Cursor :=
  match c.rest with
  | [] => .error (c.fault .endOfString)
  | y :: _ => if x = y then .ok c.advance else .error (c.peekFault .unfinishedEscape)

/-- Reads a character written as a code unit, or as a pair of them. -/
def readUnit (c : Cursor) : Except Fault (Char × Cursor) := do
  let (n, c) ← readHex c
  if 0xdc00 ≤ n ∧ n ≤ 0xdfff then .error (c.fault .loneSurrogate)
  else if n < 0xd800 ∨ 0xdbff < n then return (Char.ofNat n, c)
  else
    let c ← readPairing '\\' c
    let c ← readPairing 'u' c
    let (m, c) ← readHex c
    if m < 0xdc00 ∨ 0xdfff < m then .error (c.fault .loneSurrogate)
    else return (Char.ofNat ((n - 0xd800) * 0x400 + (m - 0xdc00) + 0x10000), c)

/-- The character that a one-letter escape stands for. -/
def escaped? (c : Char) : Option Char :=
  if c = '"' then some '"'
  else if c = '\\' then some '\\'
  else if c = '/' then some '/'
  else if c = 'b' then some '\x08'
  else if c = 'f' then some '\x0c'
  else if c = 'n' then some '\n'
  else if c = 'r' then some '\r'
  else if c = 't' then some '\t'
  else none

/-- Reads an escape whose backslash has been passed. -/
def readEscape (c : Cursor) : Except Fault (Char × Cursor) :=
  match c.rest with
  | [] => .error (c.fault .endOfString)
  | 'u' :: _ => readUnit c.advance
  | x :: _ =>
    match escaped? x with
    | some y => .ok (y, c.advance)
    | none => .error (c.peekFault .invalidEscape)

/-- Reads characters up to the closing quote; `done` holds those already read, last first. Each
round passes at least one character, and the rounds are counted by those that were there at
first. -/
def readCharsFrom : (bound : List Char) → List Char → Cursor → Except Fault (String × Cursor)
  | [], _, c => .error (c.fault .endOfString)
  | _ :: bound, done, c =>
    match c.rest with
    | [] => .error (c.fault .endOfString)
    | '"' :: _ => .ok (String.ofList done.reverse, c.advance)
    | '\\' :: _ =>
      match readEscape c.advance with
      | .ok (x, c) => readCharsFrom bound (x :: done) c
      | .error f => .error f
    | x :: _ =>
      if x.toNat < 0x20 then .error ⟨.controlCharacter, c.pos.after x⟩
      else readCharsFrom bound (x :: done) c.advance

/-- Reads a string whose opening quote has been passed. -/
def readString (c : Cursor) : Except Fault (String × Cursor) :=
  readCharsFrom c.rest [] c

end LintDiscovery.Json
