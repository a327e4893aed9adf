import OutlineWiki.Json.Fields
import OutlineWiki.Outline.Node

/-!
Reading a tree from JSON.

The fields that every node has are read where they stand. All other fields are kept
until the end of the node and read then, as its kind demands, so that the kind may
stand anywhere among them. Fields that the kind does not have only need to be JSON.
Lists and objects may be nested in one another up to a fixed depth.
-/

namespace OutlineWiki

/-- How deep lists and objects of a text may be nested. -/
def nestingLimit : Nat := 127

/-- The fields that every node has, apart from those of its kind. -/
structure CommonFields where
  children : List Node
  postBlank : Option UInt32
  name : Option String
  caption : Option (List Node)

namespace Node

def commonFields (nodes : Scan → Decoded (List Node)) : Fields CommonFields :=
  CommonFields.mk
    <$> .optional "children" [] nodes
    <*> .nullable "post_blank" Scan.asWord
    <*> .nullable "name" Scan.asString
    <*> .nullable "caption" nodes

def headlineFields (nodes : Scan → Decoded (List Node)) : Fields (Kind Node) :=
  (fun level todo priority tags title customId id footnoteSection =>
    .headline ⟨level, todo, priority, tags, customId, id, footnoteSection⟩ title)
    <$> .required "level" Scan.asByte
    <*> .nullable "todo" Scan.asString
    <*> .nullable "priority" Scan.asChar
    <*> .optional "tags" [] (Scan.asList Scan.asString)
    <*> .optional "title" [] nodes
    <*> .nullable "custom_id" Scan.asString
    <*> .nullable "id" Scan.asString
    <*> .optional "footnote_section" false Scan.asBool

def listTypes : List (String × ListType) :=
  [("unordered", .unordered), ("ordered", .ordered), ("descriptive", .descriptive)]

def checkboxes : List (String × Checkbox) :=
  [("none", .none), ("on", .on), ("off", .off), ("trans", .partly)]

def tableTypes : List (String × TableType) :=
  [("org", .rows), ("table_el", .drawing)]

def rowTypes : List (String × RowType) :=
  [("standard", .standard), ("rule", .rule)]

/-- The field of a kind that carries text. -/
def valueField : Fields String :=
  .required "value" Scan.asString

/-- The kinds that a tree may name, in the order in which numbers name them. -/
def kindNames : List String :=
  ["document", "section", "headline", "paragraph", "plain_list", "list_item", "table",
    "table_row", "table_cell", "link", "footnote_reference", "footnote_definition", "bold",
    "italic", "code", "verbatim", "line_break", "horizontal_rule", "quote_block",
    "example_block", "src_block", "fixed_width", "radio_target", "comment", "plain_text"]

/-- Reads the name of a kind, or its place among the names. -/
def asKindName : Scan → Decoded String
  | .string (some name) => .ok name
  | .number (.natural place) => .ok (kindNames[place]?.getD "")
  | scan => .error (scan.mismatch .variant)

/-- The fields of the kind with a name. Names of no kind stand for the unknown kind. -/
def kindFields (nodes : Scan → Decoded (List Node)) : String → Fields (Kind Node)
  | "document" => .constant .document
  | "section" => .constant .sectionBody
  | "headline" => headlineFields nodes
  | "paragraph" => .constant .paragraph
  | "plain_list" =>
    .plainList <$> .optional "list_type" .unordered (Scan.asVariant listTypes)
  | "list_item" =>
    .listItem
      <$> .optional "checkbox" .none (Scan.asVariant checkboxes)
      <*> .nullable "tag" nodes
  | "table" =>
    .table
      <$> .optional "table_type" .rows (Scan.asVariant tableTypes)
      <*> .nullable "value" Scan.asString
  | "table_row" => .tableRow <$> .optional "row_type" .standard (Scan.asVariant rowTypes)
  | "table_cell" => .constant .tableCell
  | "link" =>
    (fun tag path => .link (LinkType.ofTag tag) path)
      <$> .required "link_type" Scan.asString
      <*> .required "path" Scan.asString
  | "footnote_reference" => .footnoteReference <$> .nullable "label" Scan.asString
  | "footnote_definition" => .footnoteDefinition <$> .required "label" Scan.asString
  | "bold" => .constant .bold
  | "italic" => .constant .italic
  | "code" => .code <$> valueField
  | "verbatim" => .verbatim <$> valueField
  | "line_break" => .constant .lineBreak
  | "horizontal_rule" => .constant .horizontalRule
  | "quote_block" => .constant .quoteBlock
  | "example_block" => .exampleBlock <$> valueField
  | "src_block" =>
    .sourceBlock
      <$> .nullable "language" Scan.asString
      <*> valueField
      <*> .optional "number_lines" false Scan.asBool
  | "fixed_width" => .fixedWidth <$> valueField
  | "radio_target" => .constant .radioTarget
  | "comment" => .constant .comment
  | "plain_text" => .plainText <$> valueField
  | _ => .constant .unknown

/-- Reads the kind of a node from its fields that are not common to all nodes. -/
def readKind (nodes : Scan → Decoded (List Node)) (entries : List (Option String × Scan)) :
    Decoded (Kind Node) := do
  let typeField : Fields String := .required "type" asKindName
  let name ← typeField.read (fun _ => true) entries true
  (kindFields nodes name).read (fun _ => true) (typeField.others entries) true

/-- Reads a list of nodes, given how a node in it is read, if lists may be nested here. -/
def readNodes (readNode : Option (Scan → Decoded Node)) (scan : Scan) : Decoded (List Node) :=
  match readNode, scan with
  | some read, scan => scan.asList read
  | none, .array _ _ => .error .malformed
  | none, scan => .error (scan.mismatch .sequence)

/-- Reads the entries of a node, given how deep the values in it may be nested. -/
def readEntries (nodes : Scan → Decoded (List Node)) (depth : Nat)
    (entries : List (Option String × Scan)) (closed : Bool) : Decoded Node := do
  let common := commonFields nodes
  let own ← common.read (Scan.isWhole depth) entries closed
  let kind ← readKind nodes (common.others entries)
  return ⟨kind, own.children, own.postBlank, own.name, own.caption, 0⟩

/-- Reads a node, given how deep its text may be nested. -/
def read : Nat → Scan → Decoded Node
  | depth + 2, .object entries closed =>
    readEntries (readNodes (some (read depth))) (depth + 1) entries closed
  | 1, .object entries closed => readEntries (readNodes none) 0 entries closed
  | 0, .object _ _ => .error .malformed
  | _, scan => .error (scan.mismatch .node)

end Node

/-- Why a text is no tree. -/
inductive TreeError where
  | decode (error : DecodeError)
  /-- The root is of no kind that an export knows. -/
  | unknownRoot

/-- Reads a tree from the text of one JSON value. -/
def Node.ofText (text : List Char) : Except TreeError Node :=
  let (scan, isAll) := Scan.ofText text
  match Node.read nestingLimit scan with
  | .error error => .error (.decode error)
  | .ok root =>
    if !isAll then .error (.decode .malformed)
    else if root.kind.isUnknown then .error .unknownRoot
    else .ok root

end OutlineWiki
