import OutlineWiki.Decimal.Numeral

/-!
Reading JSON text as far as it is well formed.

The scan of a text keeps everything up to the place where the text stops being JSON.
What follows that place is left out: the value there is broken, and every list or
object around it is open. So whoever walks a scan from left to right meets the first
fault of the text in its proper order among the faults of other kinds.
-/

namespace OutlineWiki

/-- A value as far as its text is well formed. -/
inductive Scan where
  | broken
  | null
  | bool (value : Bool)
  | number (amount : Amount)
  /-- A string has no text when half of a surrogate pair stands alone in it. -/
  | string (value : Option String)
  | array (items : List Scan) (closed : Bool)
  | object (entries : List (Option String × Scan)) (closed : Bool)

namespace Scan

/-- A piece of a string: a character as such, or a unit of 16 bits given by its number. -/
inductive Piece where
  | char (c : Char)
  | unit (n : Nat)

def isSpace (c : Char) : Bool :=
  c == ' ' || c == '\t' || c == '\n' || c == '\r'

def skipSpace (text : List Char) : List Char :=
  text.dropWhile isSpace

/-- The value of a digit of base 16 in either case. -/
def hexDigit? (c : Char) : Option Nat :=
  if '0' ≤ c ∧ c ≤ '9' then some (c.toNat - 48)
  else if 'a' ≤ c ∧ c ≤ 'f' then some (c.toNat - 87)
  else if 'A' ≤ c ∧ c ≤ 'F' then some (c.toNat - 55)
  else none

/-- The number that four digits of base 16 give. -/
def hexUnit? (a b c d : Char) : Option Nat :=
  match hexDigit? a, hexDigit? b, hexDigit? c, hexDigit? d with
  | some a, some b, some c, some d => some (((a * 16 + b) * 16 + c) * 16 + d)
  | _, _, _, _ => none

/-- The character that a backslash and a letter stand for. -/
def shortEscape? (c : Char) : Option Char :=
  match c with
  | '"' => some '"'
  | '\\' => some '\\'
  | '/' => some '/'
  | 'b' => some (Char.ofNat 8)
  | 'f' => some (Char.ofNat 12)
  | 'n' => some '\n'
  | 'r' => some '\r'
  | 't' => some '\t'
  | _ => none

/-- Reads a string up to its closing quote, and gives the text after that quote. -/
def readPieces : List Char → Option (List Piece × List Char)
  | [] => none
  | '"' :: rest => some ([], rest)
  | '\\' :: 'u' :: a :: b :: c :: d :: rest =>
    match hexUnit? a b c d with
    | none => none
    | some n => (readPieces rest).map fun read => (.unit n :: read.1, read.2)
  | '\\' :: c :: rest =>
    match shortEscape? c with
    | none => none
    | some e => (readPieces rest).map fun read => (.char e :: read.1, read.2)
  | c :: rest =>
    if c = '\\' ∨ c.toNat < 32 then
      none
    else
      (readPieces rest).map fun read => (.char c :: read.1, read.2)

def isLeading (n : Nat) : Bool :=
  0xD800 ≤ n && n ≤ 0xDBFF

def isTrailing (n : Nat) : Bool :=
  0xDC00 ≤ n && n ≤ 0xDFFF

/-- Puts pieces together, or gives none when half of a surrogate pair stands alone. -/
def joinPieces : List Piece → Option (List Char)
  | [] => some []
  | .char c :: rest => (joinPieces rest).map (c :: ·)
  | .unit n :: .unit m :: rest =>
    if isLeading n then
      if isTrailing m then
        (joinPieces rest).map
          (Char.ofNat (0x10000 + (n - 0xD800) * 1024 + (m - 0xDC00)) :: ·)
      else
        none
    else if isTrailing n then
      none
    else
      (joinPieces (.unit m :: rest)).map (Char.ofNat n :: ·)
  | .unit n :: rest =>
    if isLeading n || isTrailing n then none else (joinPieces rest).map (Char.ofNat n :: ·)

/-- Reads a string after its opening quote. -/
def readString (text : List Char) : Option (Option String × List Char) :=
  (readPieces text).map fun read => ((joinPieces read.1).map String.ofList, read.2)

/-- What follows a word at the start of a text. -/
def dropWord? : List Char → List Char → Option (List Char)
  | [], text => some text
  | w :: word, c :: text => if w == c then dropWord? word text else none
  | _ :: _, [] => none

/-- Reads a value that a word stands for. -/
def readWord (word : List Char) (value : Scan) (text : List Char) : Scan × Option (List Char) :=
  match dropWord? word text with
  | some rest => (value, some rest)
  | none => (broken, none)

mutual

/-- Reads a value, and gives the text after it if the value is whole. -/
def readValue : Nat → List Char → Scan × Option (List Char)
  | 0, _ => (broken, none)
  | fuel + 1, text =>
    match skipSpace text with
    | [] => (broken, none)
    | '"' :: rest =>
      match readString rest with
      | none => (broken, none)
      | some read => (string read.1, some read.2)
    | '[' :: rest =>
      match skipSpace rest with
      | ']' :: rest => (array [] true, some rest)
      | rest =>
        let read := readItems fuel rest
        (array read.1 read.2.isSome, read.2)
    | '\x7b' :: rest =>
      match skipSpace rest with
      | '\x7d' :: rest => (object [] true, some rest)
      | rest =>
        let read := readEntries fuel rest
        (object read.1 read.2.isSome, read.2)
    | 'n' :: rest => readWord "ull".toList null rest
    | 't' :: rest => readWord "rue".toList (bool true) rest
    | 'f' :: rest => readWord "alse".toList (bool false) rest
    | rest =>
      match Numeral.read rest with
      | none => (broken, none)
      | some read => (number read.1.amount, some read.2)

/-- Reads the items of an array from the next item on. -/
def readItems : Nat → List Char → List Scan × Option (List Char)
  | 0, _ => ([broken], none)
  | fuel + 1, text =>
    let item := readValue fuel text
    match item.2.map skipSpace with
    | some (']' :: rest) => ([item.1], some rest)
    | some (',' :: rest) =>
      match skipSpace rest with
      | ']' :: _ => ([item.1], none)
      | rest =>
        let items := readItems fuel rest
        (item.1 :: items.1, items.2)
    | _ => ([item.1], none)

/-- Reads the entries of an object from the next key on. -/
def readEntries : Nat → List Char → List (Option String × Scan) × Option (List Char)
  | 0, _ => ([], none)
  | fuel + 1, text =>
    match text with
    | '"' :: rest =>
      match readString rest with
      | none => ([], none)
      | some key =>
        match skipSpace key.2 with
        | ':' :: rest =>
          let value := readValue fuel rest
          match value.2.map skipSpace with
          | some ('\x7d' :: rest) => ([(key.1, value.1)], some rest)
          | some (',' :: rest) =>
            let entries := readEntries fuel (skipSpace rest)
            ((key.1, value.1) :: entries.1, entries.2)
          | _ => ([(key.1, value.1)], none)
        | _ => ([(key.1, broken)], none)
    | _ => ([], none)

end

/-- Reads a text that is one value, and tells whether nothing but space follows the value. -/
def ofText (text : List Char) : Scan × Bool :=
  let read := readValue (2 * text.length + 2) text
  (read.1, read.2.any fun rest => (skipSpace rest).isEmpty)

/-- Whether a number or string can be kept as it is. -/
def isScalarWhole : Scan → Bool
  | null | bool _ => true
  | number .tooLarge => false
  | number _ => true
  | string value => value.isSome
  | _ => false

/-- Whether a value is whole, in range, and nested at most as deep as given. -/
def isWhole : Nat → Scan → Bool
  | depth + 1, array items closed => closed && items.all (isWhole depth)
  | depth + 1, object entries closed =>
    closed && entries.all fun entry => entry.1.isSome && isWhole depth entry.2
  | 0, array _ _ => false
  | 0, object _ _ => false
  | _, scalar => scalar.isScalarWhole

mutual

/-- Whether a value is well formed, whatever its depth and the range of its numbers. -/
def isFormed : Scan → Bool
  | broken => false
  | array items closed => closed && areFormed items
  | object entries closed => closed && areEntriesFormed entries
  | _ => true

def areFormed : List Scan → Bool
  | [] => true
  | item :: items => isFormed item && areFormed items

def areEntriesFormed : List (Option String × Scan) → Bool
  | [] => true
  | (_, value) :: entries => isFormed value && areEntriesFormed entries

end

end Scan

end OutlineWiki
