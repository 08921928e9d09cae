/-
Quoted text, as it stands in descriptions of values.

`quoted` puts a text in double quotes and escapes what would not be seen:

* the quote and the backslash get a backslash;
* tab, line feed, carriage return and the null character have a letter of their own;
* characters without a visible form, and those that would merge with the one before them, are
  written as their code point in hexadecimal.
-/
import LintDiscovery.Text.Printable

namespace LintDiscovery.Text

/-- The hexadecimal digits of a number, lower case, without leading zeros. -/
def hexDigits (n : Nat) : List Char :=
  Nat.toDigits 16 n

/-- One character inside double quotes. -/
def quotedChar (c : Char) : List Char :=
  if c = '"' then ['\\', '"']
  else if c = '\\' then ['\\', '\\']
  else if c = '\t' then ['\\', 't']
  else if c = '\n' then ['\\', 'n']
  else if c = '\r' then ['\\', 'r']
  else if c = '\x00' then ['\\', '0']
  else if isVisible c && !isCombining c then [c]
  else ['\\', 'u', '\x7b'] ++ hexDigits c.toNat ++ ['\x7d']

/-- A text in double quotes with everything invisible escaped. -/
def quoted (s : String) : String :=
  String.ofList ('"' :: s.toList.flatMap quotedChar ++ ['"'])

end LintDiscovery.Text
