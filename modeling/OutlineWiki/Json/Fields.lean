import OutlineWiki.Json.Decode

/-!
Reading objects with known fields.

The fields of an object are read in the order of the text: a known field may stand
there once, and the values of other fields are only checked. When all of them have
passed, the result is put together, and fields that are missing are then reported in
the order in which they are declared.
-/

namespace OutlineWiki

/-- A reader of objects: slots for the values of known fields, and what they make together. -/
structure Fields (α : Type) where
  keys : List String
  Slots : Type
  empty : Slots
  /-- Reads the value of a field into its slot, unless the key is not known. -/
  put : String → Scan → Slots → Option (Decoded Slots)
  build : Slots → Decoded α

namespace Fields

variable {α β : Type}

/-- A single field, given what follows from its value or from its absence. -/
def field (key : String) (read : Scan → Decoded β) (finish : Option β → Decoded α) : Fields α where
  keys := [key]
  Slots := Option β
  empty := none
  put own scan slot :=
    if own = key then
      match slot with
      | some _ => some (.error (.duplicateField key))
      | none => some ((read scan).map some)
    else
      none
  build := finish

/-- A field that has to be there. -/
def required (key : String) (read : Scan → Decoded α) : Fields α :=
  field key read fun
    | some value => .ok value
    | none => .error (.missingField key)

/-- A field with a value of its own when it is missing. -/
def optional (key : String) (default : α) (read : Scan → Decoded α) : Fields α :=
  field key read fun value => .ok (value.getD default)

/-- A field that may be missing or null. -/
def nullable (key : String) (read : Scan → Decoded α) : Fields (Option α) :=
  optional key none (Scan.asOption read)

/-- No field at all. -/
def constant (value : α) : Fields α where
  keys := []
  Slots := Unit
  empty := ()
  put _ _ _ := none
  build _ := .ok value

/-- The fields of both readers. -/
def both (first : Fields (α → β)) (second : Fields α) : Fields β where
  keys := first.keys ++ second.keys
  Slots := first.Slots × second.Slots
  empty := (first.empty, second.empty)
  put key scan slots :=
    match first.put key scan slots.1 with
    | some slot => some (slot.map (·, slots.2))
    | none => (second.put key scan slots.2).map fun slot => slot.map (slots.1, ·)
  build slots := do
    let make ← first.build slots.1
    let value ← second.build slots.2
    return make value

instance : Applicative Fields where
  pure := constant
  seq first second := both first (second ())

/-- Reads one entry into the slots, given which values other fields may have. -/
def enter (fields : Fields α) (accepts : Scan → Bool) (slots : fields.Slots) :
    Option String × Scan → Decoded fields.Slots
  | (none, _) => .error .malformed
  | (some key, value) =>
    match fields.put key value slots with
    | some slots => slots
    | none => if accepts value then .ok slots else .error .malformed

/-- Reads the entries of an object, given which values other fields may have. -/
def read (fields : Fields α) (accepts : Scan → Bool) (entries : List (Option String × Scan))
    (closed : Bool) : Decoded α := do
  let slots ← entries.foldlM (fields.enter accepts) fields.empty
  Scan.ensureClosed closed
  fields.build slots

/-- Reads an array that holds the values of the known fields in order, the last ones optional. -/
def readPositions (fields : Fields α) (items : List Scan) (closed : Bool) : Decoded α :=
  fields.read (fun _ => true) ((fields.keys.map some).zip items)
    (closed && items.length ≤ fields.keys.length)

/-- The entries whose keys the fields do not know. -/
def others (fields : Fields α) (entries : List (Option String × Scan)) :
    List (Option String × Scan) :=
  entries.filter fun entry => !fields.keys.any fun key => some key == entry.1

end Fields

end OutlineWiki
