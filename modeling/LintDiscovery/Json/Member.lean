/-
What stands around the members of arrays and objects.

* `nextItem` — is there another item, and where does it begin?
* `nextKey` — is there another field, and what is its key?
* `readColon` — the colon behind a key.

The closing bracket is passed when there is no further member.
-/
import LintDiscovery.Json.Literal

namespace LintDiscovery.Json

/-- Moves to the next item of an array, or behind its bracket. -/
def nextItem (first : Bool) (c : Cursor) : Except Fault (Bool × Cursor) :=
  let c := c.skipSpace
  match c.rest with
  | [] => .error (c.fault .endOfList)
  | ']' :: _ => .ok (false, c.advance)
  | x :: _ =>
    if first then .ok (true, c)
    else if x = ',' then
      let c := c.advance.skipSpace
      match c.rest with
      | [] => .error (c.fault .endOfValue)
      | ']' :: _ => .error (c.peekFault .trailingComma)
      | _ => .ok (true, c)
    else .error (c.peekFault .expectedListEnd)

/-- Reads a key, the cursor standing on it. -/
def readKey (c : Cursor) : Except Fault (Option String × Cursor) := do
  let (key, c) ← readString c.advance
  return (some key, c)

/-- Reads the next key of an object, or moves behind its brace. -/
def nextKey (first : Bool) (c : Cursor) : Except Fault (Option String × Cursor) :=
  let c := c.skipSpace
  match c.rest with
  | [] => .error (c.fault .endOfObject)
  | '\x7d' :: _ => .ok (none, c.advance)
  | x :: _ =>
    if first then
      if x = '"' then readKey c else .error (c.peekFault .keyNotString)
    else if x = ',' then
      let c := c.advance.skipSpace
      match c.rest with
      | [] => .error (c.fault .endOfValue)
      | '"' :: _ => readKey c
      | '\x7d' :: _ => .error (c.peekFault .trailingComma)
      | _ => .error (c.peekFault .keyNotString)
    else .error (c.peekFault .expectedObjectEnd)

/-- Passes over the colon behind a key. -/
def readColon (c : Cursor) : Except Fault Cursor :=
  let c := c.skipSpace
  match c.rest with
  | [] => .error (c.fault .endOfObject)
  | ':' :: _ => .ok c.advance
  | _ => .error (c.peekFault .expectedColon)

/-- Nothing but blanks may follow the value of a text. -/
def finish (c : Cursor) : Except Fault Unit :=
  let c := c.skipSpace
  if c.rest.isEmpty then .ok () else .error (c.peekFault .trailingCharacters)

end LintDiscovery.Json
