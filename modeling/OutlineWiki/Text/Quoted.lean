import OutlineWiki.Text.Ranges
import OutlineWiki.Text.Quoted.Table

/-!
Quoted text for messages.

Quotes, backslashes and the usual controls are escaped by a backslash, and any
other character that cannot be seen on its own is shown by its number.
-/

namespace OutlineWiki.Text

/-- Whether a quoted text shows the character as it is. -/
def isPrintable (c : Char) : Bool :=
  (32 ≤ c.toNat && c.toNat < 127) || !charInRanges c unprintableRanges

/-- The number of a character in base 16 between braces. -/
def numberEscape (c : Char) : List Char :=
  ['\\', 'u', '\x7b'] ++ Nat.toDigits 16 c.toNat ++ ['\x7d']

def quoteChar (c : Char) : List Char :=
  if c = '"' then ['\\', '"']
  else if c = '\\' then ['\\', '\\']
  else if c = '\n' then ['\\', 'n']
  else if c = '\r' then ['\\', 'r']
  else if c = '\t' then ['\\', 't']
  else if c.toNat = 0 then ['\\', '0']
  else if isPrintable c then [c]
  else numberEscape c

/-- A text between double quotes. -/
def quoted (text : List Char) : List Char :=
  ['"'] ++ text.flatMap quoteChar ++ ['"']

end OutlineWiki.Text
