import OutlineWiki.Decimal.Shortest
import OutlineWiki.Json.Scan
import OutlineWiki.Text.Blank
import OutlineWiki.Text.Quoted

/-!
Reading scanned JSON as values of given types.

A reader either gives a value or the first thing that is wrong, in the order of the
text. A text that stops being JSON has one fault without further detail; all other
faults say what was found, or which field is at fault.
-/

namespace OutlineWiki

/-- What stands in a text where something else was expected. -/
inductive Found where
  | null
  | bool (value : Bool)
  | integer (value : Int)
  | floating (value : Float)
  | string (value : String)
  | sequence
  | map

/-- What a reader expects. -/
inductive Expected where
  | byte
  | word
  | boolean
  | string
  | character
  | sequence
  | map
  | unit
  | node
  | options
  | variant
  | variantValue
  | singleEntry

/-- What is wrong with a text. -/
inductive DecodeError where
  | malformed
  | invalidType (found : Found) (expected : Expected)
  | invalidValue (found : Found) (expected : Expected)
  | missingField (key : String)
  | duplicateField (key : String)
  | unknownVariant (name : String) (allowed : List String)

abbrev Decoded := Except DecodeError

/-- A text between backticks. -/
def ticked (text : List Char) : List Char :=
  '\x60' :: text ++ ['\x60']

def Found.text : Found → List Char
  | null => "null".toList
  | bool value => "boolean ".toList ++ ticked (toString value).toList
  | integer value => "integer ".toList ++ ticked (toString value).toList
  | floating value => "floating point ".toList ++ ticked (Decimal.text value)
  | string value => "string ".toList ++ Text.quoted value.toList
  | sequence => "sequence".toList
  | map => "map".toList

def Expected.text : Expected → String
  | byte => "u8"
  | word => "u32"
  | boolean => "a boolean"
  | string => "a string"
  | character => "a character"
  | sequence => "a sequence"
  | map => "a map"
  | unit => "unit"
  | node => "struct Node"
  | options => "struct RenderOptions"
  | variant => "variant identifier"
  | variantValue => "string or map"
  | singleEntry => "map with a single key"

/-- The names that are allowed, as a phrase. -/
def allowedText : List String → List Char
  | [first, second] => ticked first.toList ++ " or ".toList ++ ticked second.toList
  | names => "one of ".toList ++ Text.join ", ".toList (names.map fun name => ticked name.toList)

/-- The wording of a fault, and none for a text that is not JSON. -/
def DecodeError.message? : DecodeError → Option (List Char)
  | malformed => none
  | invalidType found expected =>
    some ("invalid type: ".toList ++ found.text ++ ", expected ".toList ++ expected.text.toList)
  | invalidValue found expected =>
    some ("invalid value: ".toList ++ found.text ++ ", expected ".toList ++ expected.text.toList)
  | missingField key => some ("missing field ".toList ++ ticked key.toList)
  | duplicateField key => some ("duplicate field ".toList ++ ticked key.toList)
  | unknownVariant name allowed =>
    some ("unknown variant ".toList ++ ticked name.toList ++ ", expected ".toList ++
      allowedText allowed)

namespace Scan

/-- What stands in the text, unless the text stops being JSON there. -/
def found? : Scan → Option Found
  | broken => none
  | null => some .null
  | bool value => some (.bool value)
  | number (.natural value) => some (.integer value)
  | number (.negative distance) => some (.integer (-(distance : Int)))
  | number (.floating value) => some (.floating value)
  | number .tooLarge => none
  | string value => value.map .string
  | array _ _ => some .sequence
  | object _ _ => some .map

/-- The fault of a value that has the wrong type. -/
def mismatch (scan : Scan) (expected : Expected) : DecodeError :=
  match scan.found? with
  | none => .malformed
  | some found => .invalidType found expected

/-- Succeeds when a list or object is closed. -/
def ensureClosed (closed : Bool) : Decoded Unit :=
  if closed then .ok () else .error .malformed

def asString : Scan → Decoded String
  | string (some value) => .ok value
  | scan => .error (scan.mismatch .string)

def asBool : Scan → Decoded Bool
  | bool value => .ok value
  | scan => .error (scan.mismatch .boolean)

/-- Reads an integer from zero up to, but not including, the limit. -/
def asNatBelow (limit : Nat) (expected : Expected) : Scan → Decoded Nat
  | number (.natural value) =>
    if value < limit then .ok value else .error (.invalidValue (.integer value) expected)
  | number (.negative distance) =>
    .error (.invalidValue (.integer (-(distance : Int))) expected)
  | scan => .error (scan.mismatch expected)

def asByte (scan : Scan) : Decoded UInt8 :=
  (scan.asNatBelow 0x100 .byte).map UInt8.ofNat

def asWord (scan : Scan) : Decoded UInt32 :=
  (scan.asNatBelow 0x100000000 .word).map UInt32.ofNat

/-- Reads a string of exactly one character. -/
def asChar : Scan → Decoded Char
  | string (some value) =>
    match value.toList with
    | [c] => .ok c
    | _ => .error (.invalidValue (.string value) .character)
  | scan => .error (scan.mismatch .character)

/-- Reads null as nothing. -/
def asOption {α : Type} (read : Scan → Decoded α) : Scan → Decoded (Option α)
  | null => .ok none
  | scan => (read scan).map some

/-- Reads the items of an array in order. -/
def asList {α : Type} (read : Scan → Decoded α) : Scan → Decoded (List α)
  | array items closed => do
    let values ← items.mapM read
    ensureClosed closed
    return values
  | scan => .error (scan.mismatch .sequence)

/-- Reads one entry of an object whose keys are free. -/
def asEntry {α : Type} (read : Scan → Decoded α) : Option String × Scan → Decoded (String × α)
  | (none, _) => .error .malformed
  | (some key, value) => (read value).map (key, ·)

/-- Reads the entries of an object whose keys are free, in order. -/
def asEntries {α : Type} (read : Scan → Decoded α) : Scan → Decoded (List (String × α))
  | object entries closed => do
    let values ← entries.mapM (asEntry read)
    ensureClosed closed
    return values
  | scan => .error (scan.mismatch .map)

/-- Finds the value that a name stands for. -/
def variantNamed {α : Type} (variants : List (String × α)) (name : String) : Decoded α :=
  match variants.lookup name with
  | some value => .ok value
  | none => .error (.unknownVariant name (variants.map (·.1)))

/-- Reads what may stand beside the name of a variant without fields. -/
def asNothing : Scan → Decoded Unit
  | null => .ok ()
  | object [] true => .ok ()
  | scan => .error (scan.mismatch .unit)

/-- Reads a variant by its name, alone or as the only key of an object. -/
def asVariant {α : Type} (variants : List (String × α)) : Scan → Decoded α
  | string (some name) => variantNamed variants name
  | object [(some name, value)] _ => do
    let variant ← variantNamed variants name
    value.asNothing
    return variant
  | object _ _ => .error (.invalidValue .map .singleEntry)
  | scan => .error (scan.mismatch .variantValue)

end Scan

end OutlineWiki
