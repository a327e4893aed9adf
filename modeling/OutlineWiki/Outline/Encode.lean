import OutlineWiki.Json.Basic
import OutlineWiki.Outline.Decode

/-!
Writing a tree as JSON, and equality of trees.

A node is written with its kind first, then the fields of the kind, then what all nodes
have. Fields that say no more than a missing field would are left out, apart from the
types of lists, tables and rows.
-/

namespace OutlineWiki

namespace Node

/-- A field that is left out when there is no value. -/
def optionField (key : String) : Option Json → List (String × Json)
  | none => []
  | some value => [(key, value)]

/-- A field that is left out when the list is empty. -/
def listField (key : String) (items : List Json) : List (String × Json) :=
  if items.isEmpty then [] else [(key, .array items)]

/-- A field that is left out when it is false. -/
def flagField (key : String) (value : Bool) : List (String × Json) :=
  if value then [(key, .bool true)] else []

/-- The name of a variant. -/
def variantName {α : Type} [DecidableEq α] (variants : List (String × α)) (value : α) : String :=
  ((variants.find? fun variant => variant.2 = value).map (·.1)).getD ""

def headlineEntries (info : HeadlineInfo) (title : List Json) : List (String × Json) :=
  [("level", .number info.level.toNat)] ++
    optionField "todo" (info.todo.map .string) ++
    optionField "priority" (info.priority.map fun c => .string (String.ofList [c])) ++
    listField "tags" (info.tags.map .string) ++
    listField "title" title ++
    optionField "custom_id" (info.customId.map .string) ++
    optionField "id" (info.id.map .string) ++
    flagField "footnote_section" info.footnoteSection

/-- The fields of a kind whose own nodes are written already. -/
def kindEntries : Kind Json → List (String × Json)
  | .headline info title => headlineEntries info title
  | .plainList type => [("list_type", .string (variantName listTypes type))]
  | .listItem checkbox tag =>
    (if checkbox = .none then []
      else [("checkbox", .string (variantName checkboxes checkbox))]) ++
    optionField "tag" (tag.map .array)
  | .table type value =>
    ("table_type", .string (variantName tableTypes type)) ::
      optionField "value" (value.map .string)
  | .tableRow type => [("row_type", .string (variantName rowTypes type))]
  | .link type path => [("link_type", .string type.tag), ("path", .string path)]
  | .footnoteReference label => optionField "label" (label.map .string)
  | .footnoteDefinition label => [("label", .string label)]
  | .code value | .verbatim value | .exampleBlock value | .fixedWidth value
  | .plainText value => [("value", .string value)]
  | .sourceBlock language value numberLines =>
    optionField "language" (language.map .string) ++ ("value", .string value) ::
      flagField "number_lines" numberLines
  | _ => []

/-- A tree as a JSON value. -/
def toJson : Node → Json :=
  fold fun node parts =>
    .object (("type", .string node.kind.name) :: kindEntries parts.kind ++
      listField "children" parts.children ++
      optionField "post_blank" (node.postBlank.map fun n => .number n.toNat) ++
      optionField "name" (node.name.map .string) ++
      optionField "caption" (parts.caption.map .array))

/-- The text of a tree as JSON. -/
def text (node : Node) : List Char :=
  node.toJson.text

/-- Whether two lists agree item by item, given how an item of the first is compared. -/
def agree : List (Node → Bool) → List Node → Bool
  | [], [] => true
  | same :: rest, node :: nodes => same node && agree rest nodes
  | _, _ => false

def agreeAll : List (List (Node → Bool)) → List (List Node) → Bool
  | [], [] => true
  | same :: rest, nodes :: lists => agree same nodes && agreeAll rest lists
  | _, _ => false

/-- Equality of trees, their numbers included. -/
def same : Node → Node → Bool :=
  fold fun a parts b =>
    a.kind.outline == b.kind.outline && a.postBlank == b.postBlank && a.name == b.name &&
      a.id == b.id && a.caption.isSome == b.caption.isSome && agreeAll parts.lists b.lists

end Node

end OutlineWiki
