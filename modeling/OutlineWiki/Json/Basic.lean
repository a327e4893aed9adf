/-!
JSON values as this library writes them, and their compact text.

The entries of an object keep their order. A string escapes the quote, the backslash
and the control characters, and nothing else.
-/

namespace OutlineWiki

inductive Json where
  | null
  | bool (value : Bool)
  | number (value : Nat)
  | string (value : String)
  | array (items : List Json)
  | object (entries : List (String × Json))

namespace Json

/-- A control character by its number in four digits of base 16. -/
def unitEscape (n : Nat) : List Char :=
  ['\\', 'u', '0', '0', Nat.digitChar (n / 16), Nat.digitChar (n % 16)]

def escapeChar (c : Char) : List Char :=
  if c = '"' then ['\\', '"']
  else if c = '\\' then ['\\', '\\']
  else if c.toNat = 8 then ['\\', 'b']
  else if c = '\t' then ['\\', 't']
  else if c = '\n' then ['\\', 'n']
  else if c.toNat = 12 then ['\\', 'f']
  else if c = '\r' then ['\\', 'r']
  else if c.toNat < 32 then unitEscape c.toNat
  else [c]

/-- A string between its quotes. -/
def stringText (value : String) : List Char :=
  ['"'] ++ value.toList.flatMap escapeChar ++ ['"']

mutual

/-- The compact text of a value. -/
def text : Json → List Char
  | null => "null".toList
  | bool true => "true".toList
  | bool false => "false".toList
  | number value => Nat.toDigits 10 value
  | string value => stringText value
  | array [] => ['[', ']']
  | array (item :: items) => '[' :: text item ++ itemsText items
  | object [] => ['\x7b', '\x7d']
  | object ((key, value) :: entries) =>
    '\x7b' :: stringText key ++ ':' :: text value ++ entriesText entries

/-- The text from the end of one item of an array to the end of the array. -/
def itemsText : List Json → List Char
  | [] => [']']
  | item :: items => ',' :: text item ++ itemsText items

/-- The text from the end of one entry of an object to the end of the object. -/
def entriesText : List (String × Json) → List Char
  | [] => ['\x7d']
  | (key, value) :: entries => ',' :: stringText key ++ ':' :: text value ++ entriesText entries

end

end Json

end OutlineWiki
