/-!
Numerals and the amounts that they stand for.

A numeral without fraction and exponent is an integer as long as it fits a word of 64
bits. Any other numeral is a floating point number: its first digits, as many as fit a
word, are scaled by a power of ten, and it is too large when the scaled value is
infinite.
-/

namespace OutlineWiki

/-- The digits of a numeral, each as a number below ten. -/
structure Numeral where
  isNegative : Bool
  whole : List Nat
  fraction : List Nat := []
  /-- Whether the exponent is negative, and its digits. -/
  exponent : Option (Bool × List Nat) := none

/-- What a numeral stands for. -/
inductive Amount where
  | natural (value : Nat)
  /-- An integer below zero, given by its distance from zero. -/
  | negative (distance : Nat)
  | floating (value : Float)
  | tooLarge

namespace Numeral

/-- The largest number that fits a word. -/
def wordLimit : Nat :=
  0xFFFFFFFFFFFFFFFF

/-- The digits at the start of a text. -/
def takeDigits (text : List Char) : List Nat :=
  (text.takeWhile Char.isDigit).map fun c => c.toNat - 48

def dropDigits (text : List Char) : List Char :=
  text.dropWhile Char.isDigit

/-- Reads the digits of an exponent after its sign. -/
def readExponentDigits (isNegative : Bool) (text : List Char) :
    Option (Option (Bool × List Nat) × List Char) :=
  if (takeDigits text).isEmpty then
    none
  else
    some (some (isNegative, takeDigits text), dropDigits text)

/-- Reads an exponent if there is one, and refuses one without digits. -/
def readExponent : List Char → Option (Option (Bool × List Nat) × List Char)
  | c :: text =>
    if c = 'e' ∨ c = 'E' then
      match text with
      | '+' :: digits => readExponentDigits false digits
      | '-' :: digits => readExponentDigits true digits
      | digits => readExponentDigits false digits
    else
      some (none, c :: text)
  | [] => some (none, [])

/-- Reads a fraction if there is one, and refuses one without digits. -/
def readFraction : List Char → Option (List Nat × List Char)
  | '.' :: text =>
    if (takeDigits text).isEmpty then none else some (takeDigits text, dropDigits text)
  | text => some ([], text)

/-- Reads a numeral after its sign. Only zero itself starts with a zero. -/
def readUnsigned (isNegative : Bool) (text : List Char) : Option (Numeral × List Char) :=
  match takeDigits text with
  | [] => none
  | 0 :: _ :: _ => none
  | whole =>
    (readFraction (dropDigits text)).bind fun fraction =>
      (readExponent fraction.2).map fun exponent =>
        (⟨isNegative, whole, fraction.1, exponent.1⟩, exponent.2)

/-- Reads the numeral at the start of a text. -/
def read : List Char → Option (Numeral × List Char)
  | '-' :: text => readUnsigned true text
  | text => readUnsigned false text

/-- Takes in digits before the point, and counts those that no longer fit. -/
def takeWhole : Nat → List Nat → Nat × Nat
  | significand, [] => (significand, 0)
  | significand, digit :: digits =>
    if significand * 10 + digit ≤ wordLimit then
      takeWhole (significand * 10 + digit) digits
    else
      (significand, digits.length + 1)

/-- Takes in digits after the point until one does not fit, and counts those taken. -/
def takeFraction : Nat → List Nat → Nat × Nat
  | significand, [] => (significand, 0)
  | significand, digit :: digits =>
    if significand * 10 + digit ≤ wordLimit then
      let rest := takeFraction (significand * 10 + digit) digits
      (rest.1, rest.2 + 1)
    else
      (significand, 0)

def powerOfTen (exponent : Nat) : Float :=
  Float.ofScientific 1 false exponent

/-- Divides by powers of ten that are themselves in range, as often as the fuel allows. -/
def scaleDown : Nat → Float → Nat → Float
  | 0, value, _ => value
  | fuel + 1, value, exponent =>
    if exponent ≤ 308 then
      value / powerOfTen exponent
    else if value == 0 then
      value
    else
      scaleDown fuel (value / powerOfTen 308) (exponent - 308)

/-- A significand times a power of ten, or none when that is out of range. -/
def scale? (significand : Nat) (exponent : Int) : Option Float :=
  let value := significand.toFloat
  if exponent < 0 then
    some (scaleDown (exponent.natAbs + 1) value exponent.natAbs)
  else if exponent ≤ 308 then
    let scaled := value * powerOfTen exponent.natAbs
    if scaled.isInf then none else some scaled
  else if significand = 0 then
    some value
  else
    none

/-- The number that the digits of an exponent give, or none beyond the range of exponents. -/
def exponentValue? (digits : List Nat) : Option Nat :=
  let value := digits.foldl (fun value digit => value * 10 + digit) 0
  if value ≤ 0x7FFFFFFF then some value else none

/-- The amount of a numeral that has a fraction or an exponent, or too many digits. -/
def floatingAmount (numeral : Numeral) (significand : Nat) (exponent : Int) : Amount :=
  let scaled :=
    match numeral.exponent with
    | none => scale? significand exponent
    | some (isNegative, digits) =>
      match exponentValue? digits with
      | some power => scale? significand (if isNegative then exponent - power else exponent + power)
      | none => if significand = 0 ∨ isNegative = true then some 0 else none
  match scaled with
  | none => .tooLarge
  | some value => .floating (if numeral.isNegative then -value else value)

/-- What a numeral stands for. Zero with a sign is a floating point number. -/
def amount (numeral : Numeral) : Amount :=
  let whole := takeWhole 0 numeral.whole
  if whole.2 = 0 ∧ numeral.fraction = [] ∧ numeral.exponent = none then
    if !numeral.isNegative then .natural whole.1
    else if 0 < whole.1 ∧ whole.1 ≤ 0x8000000000000000 then .negative whole.1
    else .floating (-whole.1.toFloat)
  else
    let fraction := takeFraction whole.1 numeral.fraction
    numeral.floatingAmount fraction.1 ((whole.2 : Int) - fraction.2)

end Numeral

end OutlineWiki
