/-
JSON values as text.

* `Json.text` — on one line, without blanks;
* `Json.prettyText` — one item or field a line, two blanks deeper for each level; an empty array is
  `[]` and an empty object `{}`;
* `Json.inspect` — a description that names the type of every value.

Strings escape the quote, the backslash and the control characters below the blank, and nothing
else. Whole numbers have no point; doubles are written by `Number.layout`.
-/
import LintDiscovery.Json.Basic
import LintDiscovery.Decimal.Shortest
import LintDiscovery.Text.Quoted

namespace LintDiscovery

namespace Number

/-- Doubles are written positionally from `0.00001` on and below `1e+16`. -/
def layout : Decimal.Layout := ⟨-5, 16⟩

/-- The digits of a whole number, with a minus sign where it has one. -/
def integerChars (n : Int) : List Char :=
  (if n < 0 then ['-'] else []) ++ Nat.toDigits 10 n.natAbs

/-- A number as text. -/
def chars : Number → List Char
  | .integer n => integerChars n
  | .double d => d.chars layout

end Number

namespace Json

/-- A hexadecimal digit, lower case. -/
def hexDigit (n : Nat) : Char :=
  Nat.digitChar n

/-- One character inside a string. -/
def stringChar (c : Char) : List Char :=
  if c = '"' then ['\\', '"']
  else if c = '\\' then ['\\', '\\']
  else if c = '\x08' then ['\\', 'b']
  else if c = '\t' then ['\\', 't']
  else if c = '\n' then ['\\', 'n']
  else if c = '\x0c' then ['\\', 'f']
  else if c = '\r' then ['\\', 'r']
  else if c.toNat < 0x20 then
    ['\\', 'u', '0', '0', hexDigit (c.toNat / 16), hexDigit (c.toNat % 16)]
  else [c]

/-- A string in its quotes. -/
def stringChars (s : String) : List Char :=
  '"' :: s.toList.flatMap stringChar ++ ['"']

/-! ### On one line -/

mutual

/-- A value without blanks. -/
def chars : Json → List Char
  | .null => ['n', 'u', 'l', 'l']
  | .bool true => ['t', 'r', 'u', 'e']
  | .bool false => ['f', 'a', 'l', 's', 'e']
  | .number n => n.chars
  | .string s => stringChars s
  | .array items => '[' :: itemChars items
  | .object fields => '\x7b' :: fieldChars fields

/-- Items and the closing bracket. -/
def itemChars : List Json → List Char
  | [] => [']']
  | v :: rest => v.chars ++ moreItemChars rest

/-- Further items, each after a comma, and the closing bracket. -/
def moreItemChars : List Json → List Char
  | [] => [']']
  | v :: rest => ',' :: v.chars ++ moreItemChars rest

/-- Fields and the closing brace. -/
def fieldChars : List (String × Json) → List Char
  | [] => ['\x7d']
  | (k, v) :: rest => stringChars k ++ ':' :: v.chars ++ moreFieldChars rest

/-- Further fields, each after a comma, and the closing brace. -/
def moreFieldChars : List (String × Json) → List Char
  | [] => ['\x7d']
  | (k, v) :: rest => ',' :: stringChars k ++ ':' :: v.chars ++ moreFieldChars rest

end

/-- A value as text on one line. -/
def text (v : Json) : String :=
  String.ofList v.chars

/-! ### One item a line -/

/-- A new line for the given level. -/
def newLine (level : Nat) : List Char :=
  '\n' :: List.replicate (2 * level) ' '

mutual

/-- A value whose first line stands at the given level. -/
def prettyChars (level : Nat) : Json → List Char
  | .array [] => ['[', ']']
  | .array (v :: rest) => '[' :: prettyItemChars level (v :: rest)
  | .object [] => ['\x7b', '\x7d']
  | .object (f :: rest) => '\x7b' :: prettyFieldChars level (f :: rest)
  | .null => ['n', 'u', 'l', 'l']
  | .bool true => ['t', 'r', 'u', 'e']
  | .bool false => ['f', 'a', 'l', 's', 'e']
  | .number n => n.chars
  | .string s => stringChars s

/-- Items, each on a line of its own, and the closing bracket. -/
def prettyItemChars (level : Nat) : List Json → List Char
  | [] => newLine level ++ [']']
  | v :: rest =>
    newLine (level + 1) ++ prettyChars (level + 1) v ++
      (if rest.isEmpty then [] else [',']) ++ prettyItemChars level rest

/-- Fields, each on a line of its own, and the closing brace. -/
def prettyFieldChars (level : Nat) : List (String × Json) → List Char
  | [] => newLine level ++ ['\x7d']
  | (k, v) :: rest =>
    newLine (level + 1) ++ stringChars k ++ ':' :: ' ' :: prettyChars (level + 1) v ++
      (if rest.isEmpty then [] else [',']) ++ prettyFieldChars level rest

end

/-- A value as text with one item or field a line. -/
def prettyText (v : Json) : String :=
  String.ofList (prettyChars 0 v)

/-! ### Described -/

mutual

/-- A value described with the type of each of its parts. -/
def inspect : Json → String
  | .null => "Null"
  | .bool b => "Bool(" ++ (if b then "true" else "false") ++ ")"
  | .number n => "Number(" ++ String.ofList n.chars ++ ")"
  | .string s => "String(" ++ Text.quoted s ++ ")"
  | .array items => "Array [" ++ ", ".intercalate (inspectItems items) ++ "]"
  | .object fields => "Object \x7b" ++ ", ".intercalate (inspectFields fields) ++ "\x7d"

/-- The descriptions of items. -/
def inspectItems : List Json → List String
  | [] => []
  | v :: rest => v.inspect :: inspectItems rest

/-- The descriptions of fields. -/
def inspectFields : List (String × Json) → List String
  | [] => []
  | (k, v) :: rest => (Text.quoted k ++ ": " ++ v.inspect) :: inspectFields rest

end

/-- An optional value described. -/
def inspectOption : Option Json → String
  | none => "None"
  | some v => "Some(" ++ v.inspect ++ ")"

end Json

end LintDiscovery
