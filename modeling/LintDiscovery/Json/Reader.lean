/-
Values read from a text and kept.

`readValue` reads one value. `levels` bounds how deep brackets may nest: each open bracket takes
one, and the last one is never taken. `parse` reads a whole text, with `maxLevels` levels.

The recursion counts down a number that the wrappers take from the length of the text: a bracket or
an item takes at most two rounds and passes at least one character.
-/
import LintDiscovery.Json.Member

namespace LintDiscovery.Json

/-- The levels that a whole text may use; one more than brackets may be open at once. -/
def maxLevels : Nat := 128

mutual

/-- Reads one value. -/
def readValueFrom : Nat → Nat → Cursor → Except Fault (Json × Cursor)
  | 0, _, c => .error (c.fault .endOfValue)
  | fuel + 1, levels, c =>
    let c := c.skipSpace
    match c.rest with
    | [] => .error (c.fault .endOfValue)
    | 'n' :: _ => do return (.null, ← readWord ['u', 'l', 'l'] c.advance)
    | 't' :: _ => do return (.bool true, ← readWord ['r', 'u', 'e'] c.advance)
    | 'f' :: _ => do return (.bool false, ← readWord ['a', 'l', 's', 'e'] c.advance)
    | '-' :: _ => do
      let (n, c) ← readNumber true c.advance
      return (.number n, c)
    | '"' :: _ => do
      let (s, c) ← readString c.advance
      return (.string s, c)
    | '[' :: _ =>
      if levels ≤ 1 then .error (c.peekFault .tooDeep)
      else readItemsFrom fuel (levels - 1) true [] c.advance
    | '\x7b' :: _ =>
      if levels ≤ 1 then .error (c.peekFault .tooDeep)
      else readFieldsFrom fuel (levels - 1) true [] c.advance
    | x :: _ =>
      if isDigit x then do
        let (n, c) ← readNumber false c
        return (.number n, c)
      else .error (c.peekFault .expectedValue)

/-- Reads the items of an array up to its bracket; `done` holds those already read, last first. -/
def readItemsFrom : Nat → Nat → Bool → List Json → Cursor → Except Fault (Json × Cursor)
  | 0, _, _, _, c => .error (c.fault .endOfList)
  | fuel + 1, levels, first, done, c =>
    match nextItem first c with
    | .error f => .error f
    | .ok (false, c) => .ok (.array done.reverse, c)
    | .ok (true, c) =>
      match readValueFrom fuel levels c with
      | .ok (v, c) => readItemsFrom fuel levels false (v :: done) c
      | .error f => .error f

/-- Reads the fields of an object up to its brace; `done` holds those already read. -/
def readFieldsFrom : Nat → Nat → Bool → List (String × Json) → Cursor →
    Except Fault (Json × Cursor)
  | 0, _, _, _, c => .error (c.fault .endOfObject)
  | fuel + 1, levels, first, done, c =>
    match nextKey first c with
    | .error f => .error f
    | .ok (none, c) => .ok (.object done, c)
    | .ok (some key, c) =>
      match readColon c with
      | .error f => .error f
      | .ok c =>
        match readValueFrom fuel levels c with
        | .ok (v, c) => readFieldsFrom fuel levels false (insert key v done) c
        | .error f => .error f

end

/-- Reads one value with brackets nested below the given level. -/
def readValue (levels : Nat) (c : Cursor) : Except Fault (Json × Cursor) :=
  readValueFrom (2 * c.rest.length + 2) levels c

/-- Reads a whole text. -/
def parse (s : String) : Except Fault Json := do
  let (v, c) ← readValue maxLevels (.start s)
  finish c
  return v

end LintDiscovery.Json
