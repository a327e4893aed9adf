import OutlineWiki.Markup.Escape
import OutlineWiki.Markup.Footnotes
import OutlineWiki.Markup.ListItem
import OutlineWiki.Markup.Literal
import OutlineWiki.Markup.Spacing
import OutlineWiki.Reference.Host
import OutlineWiki.Text.Template
import OutlineWiki.Text.Width

/-!
Markup of a prepared tree.

The markup of a node is made from the markup of its children, which comes first, and
from what else the node shows: a title, a tag, a caption or the target of a link. Each
of these formats is given how a node is rendered, and rendering itself puts them
together. Footnotes get their numbers on the way.

Links can make a node show nodes that lie elsewhere in the tree. Where they lead in a
circle there is no markup, and rendering gives none.
-/

namespace OutlineWiki

/-- What a rendering depends on beside the node. -/
structure Context where
  options : Options
  host : Host
  index : Index

/-- A part of a rendering, which gives footnotes their numbers, if it comes to an end. -/
abbrev Rendering := StateT Footnotes Option

namespace Markup

open OutlineWiki.Text

/-- Renders nodes in order. -/
def renderAll (render : Node → Rendering (List Char)) : List Node → Rendering (List Char)
  | [] => pure []
  | node :: nodes => do
    let first ← render node
    let rest ← renderAll render nodes
    return first ++ rest

/-- Renders the nodes of a caption in one line, and an absent caption as nothing. -/
def renderCaption (render : Node → Rendering (List Char)) :
    Option (List Node) → Rendering (Option (List Char))
  | none => pure none
  | some caption => do
    let text ← renderAll render caption
    return some (trim text)

/-- Whether the children of a node are rendered before the node. -/
def descends : Kind Node → Bool
  | .footnoteReference _ | .footnoteDefinition _ | .listItem _ _ | .comment | .unknown => false
  | .headline info _ => !info.footnoteSection
  | _ => true

/-- The part of a heading before the title. -/
def headingStart (options : Options) (info : HeadlineInfo) : List Char :=
  (match info.todo with
    | some todo => if options.withTodoKeywords then todo.toList ++ [' '] else []
    | none => []) ++
  (match info.priority with
    | some priority => if options.withPriority then ['[', '#', priority, ']', ' '] else []
    | none => [])

/-- The part of a heading after the title. -/
def headingTags (options : Options) (info : HeadlineInfo) : List Char :=
  if options.withTags && !info.tags.isEmpty then
    "     :".toList ++ join [':'] (info.tags.map String.toList) ++ [':']
  else
    []

/-- A headline over the markup of its section. -/
def headlineMarkup (options : Options) (info : HeadlineInfo) (title contents : List Char) :
    List Char :=
  let heading := headingStart options info ++ trimEnd title
  let tags := headingTags options info
  match options.headlineStyle with
  | .underlined =>
    let rule := if info.level ≤ 1 then '=' else '-'
    heading ++ tags ++ ['\n'] ++ List.replicate (width heading) rule ++ ['\n', '\n'] ++ contents
  | .marked =>
    let marks := List.replicate info.depth '='
    marks ++ [' '] ++ heading ++ tags ++ [' '] ++ marks ++ ['\n'] ++ contents

def headline (context : Context) (render : Node → Rendering (List Char)) (info : HeadlineInfo)
    (title : List Node) (contents : List Char) : Rendering (List Char) :=
  if info.footnoteSection then
    pure []
  else do
    let title ← renderAll render title
    return headlineMarkup context.options info title contents

/-- Whether the first node of a paragraph is text that starts with a hash sign. -/
def startsWithHash (children : List Node) : Bool :=
  match children with
  | [] => false
  | first :: _ =>
    match first.kind with
    | .plainText value => value.toList.head? == some '#'
    | _ => false

/-- Keeps a paragraph from starting with a hash sign of its text. -/
def paragraph (children : List Node) (contents : List Char) : List Char :=
  if startsWithHash children && contents.head? == some '#' then '\\' :: contents else contents

/-- The type of the list that a node stands in. -/
def listTypeAround (index : Index) (node : Node) : ListType :=
  match index.parent? node with
  | none => .unordered
  | some owner =>
    match owner.kind with
    | .plainList type => type
    | _ => .unordered

/-- Renders children in order, each with whether it is a list. -/
def renderParts (render : Node → Rendering (List Char)) :
    List Node → Rendering (List (Bool × List Char))
  | [] => pure []
  | node :: nodes => do
    let first ← render node
    let rest ← renderParts render nodes
    return (node.kind.isPlainList, first) :: rest

/-- The mark of an item, if there is anything to mark. -/
def itemMark (checkbox : Checkbox) (tag : Option (List Char)) : Option (List Char) :=
  let mark := checkboxMark checkbox ++
    match tag with
    | none => []
    | some tag => "**".toList ++ tag ++ ":** ".toList
  if mark.isEmpty then none else some mark

def listItem (context : Context) (render : Node → Rendering (List Char)) (node : Node)
    (checkbox : Checkbox) (tag : Option (List Node)) : Rendering (List Char) := do
  let tag ← renderCaption render tag
  let parts ← renderParts render node.children
  return itemLines (bullet (listTypeAround context.index node)) (itemMark checkbox tag) parts

def quoteBlock (contents : List Char) : List Char :=
  "<blockquote>\n".toList ++ dropTrailing (· == '\n') contents ++ "\n</blockquote>".toList

/-- A table around its rows. -/
def tableMarkup (name : Option String) (caption : Option (List Char)) (contents : List Char) :
    List Char :=
  "\x7b| ".toList ++
    (match name with
      | none => []
      | some name => "class=".toList ++ name.toList) ++ ['\n'] ++
    (match caption with
      | none => []
      | some caption => "|+ ".toList ++ caption ++ ['\n']) ++
    ['\n', '\n'] ++ contents ++ "\n|\x7d".toList

def table (context : Context) (render : Node → Rendering (List Char)) (node : Node)
    (type : TableType) (contents : List Char) : Rendering (List Char) :=
  match type with
  | .drawing => pure (context.host.drawing node)
  | .rows => do
    let caption ← renderCaption render (context.host.caption node)
    return tableMarkup context.options.defaultTableClass caption contents

def tableRow (contents : List Char) : List Char :=
  "|-\n".toList ++ contents

/-- Whether a cell stands in a column that only marks the rows. -/
def isMarkingCell (context : Context) (cell : Node) : Bool :=
  context.index.position? cell == some 0 &&
    (((context.index.parent? cell).bind context.index.parent?).map
      context.host.hasMarkingColumn).getD false

def tableCell (context : Context) (cell : Node) (contents : List Char) : List Char :=
  if isMarkingCell context cell then [] else '|' :: contents ++ ['\n']

/-- A description followed by a reference in parentheses, or the latter alone. -/
def describedReference (description : Option (List Char)) (reference : List Char) : List Char :=
  match description with
  | some description => description ++ [' ', '('] ++ reference ++ [')']
  | none => '(' :: reference ++ [')']

def crossReference (context : Context) (node : Node) (description : Option (List Char)) :
    List Char :=
  match context.host.crossReference node with
  | none => description.getD []
  | some (.external file) =>
    let path := Path.replaceExtension file.toList context.options.outputExtension.toList
    match description with
    | some description => '[' :: description ++ [']', '('] ++ path ++ [')']
    | none => '<' :: path ++ ['>']
  | some (.internal target) =>
    match context.host.ordinal target with
    | none => description.getD []
    | some ordinal =>
      describedReference description
        (fill (context.host.localize "See section %s").toList [ordinal.text])

def codeReference (context : Context) (label : List Char) (description : Option (List Char)) :
    List Char :=
  match context.host.codeReference label description with
  | none => description.getD []
  | some (template, value) => fill template [value]

def radioLink (context : Context) (render : Node → Rendering (List Char)) (node : Node)
    (description : Option (List Char)) : Rendering (List Char) :=
  match context.host.radioTarget node with
  | none => pure (description.getD [])
  | some target => renderAll render target.children

def fuzzyLink (context : Context) (node : Node) (description : Option (List Char)) : List Char :=
  match description with
  | some description => description
  | none =>
    match (context.host.fuzzyTarget node).bind context.host.ordinal with
    | none => []
    | some ordinal => ordinal.text

/-- Whether a link shows the image that it leads to. -/
def isImage (context : Context) (type : LinkType) (path : String)
    (description : Option (List Char)) : Bool :=
  match type with
  | .image => true
  | .file | .http | .https | .ftp =>
    description.isNone &&
      context.host.showsImage path context.options.inlineImageExtensions
  | _ => false

/-- The path of a link with its type before it. -/
def urlText (type : LinkType) (path : List Char) : List Char :=
  type.tag.toList ++ ':' :: path

/-- Where an image lies. -/
def imageSource (type : LinkType) (path : List Char) : List Char :=
  if type.isUrl then urlText type path
  else if Path.isAbsolute path then Path.normalize path
  else path

def image (context : Context) (render : Node → Rendering (List Char)) (node : Node)
    (type : LinkType) (path : List Char) : Rendering (List Char) := do
  let caption ← renderCaption render
    ((context.index.parentBlock? node).bind context.host.caption)
  return ['!', '['] ++ caption.getD [] ++ [']', '('] ++ imageSource type path ++ [')']

/-- Where a link to a file or another resource leads. -/
def externalTarget (options : Options) (type : LinkType) (path : List Char) : List Char :=
  if type = .file then
    let path := Path.replaceExtension path options.outputExtension.toList
    if Path.isAbsolute path then "file://".toList ++ Path.normalize path else path
  else
    path

def externalLink (options : Options) (type : LinkType) (path : List Char)
    (description : Option (List Char)) : List Char :=
  let target := externalTarget options type path
  match description with
  | some description => '[' :: target ++ [' '] ++ description ++ [']']
  | none => if type.isUrl then urlText type target else target

def link (context : Context) (render : Node → Rendering (List Char)) (node : Node)
    (type : LinkType) (path : String) (contents : List Char) : Rendering (List Char) :=
  let description := if (trim contents).isEmpty then none else some (trim contents)
  match type with
  | .customId | .id => pure (crossReference context node description)
  | .coderef => pure (codeReference context path.toList description)
  | .radio => radioLink context render node description
  | .fuzzy => pure (fuzzyLink context node description)
  | type =>
    if isImage context type path description then
      image context render node type path.toList
    else
      pure (externalLink context.options type path.toList description)

/-- The marker of a footnote, apart from the marker of a reference just before it. -/
def footnoteReference (context : Context) (node : Node) : Rendering (List Char) := do
  let footnotes ← get
  let (number, footnotes) := footnotes.number node
  set footnotes
  match number with
  | none => return []
  | some number =>
    let follows := (context.index.previous? node).any fun other => other.kind.isFootnoteReference
    let separator := if follows then context.options.footnoteSeparator.toList else []
    return separator ++
      fill context.options.footnoteReferenceFormat.toList [digits number]

/-- The markup of a node, given that of its children, without the space after the node. -/
def format (context : Context) (render : Node → Rendering (List Char)) (node : Node)
    (contents : List Char) : Rendering (List Char) :=
  match node.kind with
  | .document | .sectionBody | .plainList _ | .radioTarget => pure contents
  | .headline info title => headline context render info title contents
  | .paragraph => pure (paragraph node.children contents)
  | .listItem checkbox tag => listItem context render node checkbox tag
  | .quoteBlock => pure (quoteBlock contents)
  | .exampleBlock value | .sourceBlock _ value _ | .fixedWidth value =>
    pure (literalBlock value.toList)
  | .table type _ => table context render node type contents
  | .tableRow _ => pure (tableRow contents)
  | .tableCell => pure (tableCell context node contents)
  | .link type path => link context render node type path contents
  | .footnoteReference _ => footnoteReference context node
  | .bold => pure ("'''".toList ++ contents ++ "'''".toList)
  | .italic => pure ("''".toList ++ contents ++ "''".toList)
  | .code value | .verbatim value => pure (literalRun value.toList)
  | .lineBreak => pure "<br />".toList
  | .horizontalRule => pure "----".toList
  | .plainText value => pure (run context.options value.toList)
  | .footnoteDefinition _ | .comment | .unknown => pure []

/-- The markup of a node with the space after it, given how other nodes are rendered. -/
def renderWith (context : Context) (render : Node → Rendering (List Char)) (node : Node) :
    Rendering (List Char) := do
  let contents ← if descends node.kind then renderAll render node.children else pure []
  let markup ← format context render node contents
  return withSpace node markup

/-- Renders a node as long as no more nodes show one another in a row than given. -/
def renderNode (context : Context) : Nat → Node → Rendering (List Char)
  | 0, _ => fun _ => none
  | depth + 1, node => renderWith context (renderNode context depth) node

/-- One entry of the section of footnotes. -/
def footnoteEntry (number : Nat) (text : List Char) : List Char :=
  '[' :: digits number ++ [']', ' '] ++ trim text ++ ['\n']

/-- The entries of the footnotes from a place on, as many as there are in the end. -/
def footnoteEntries (context : Context) (render : Node → Rendering (List Char)) :
    Nat → Nat → Rendering (List (List Char))
  | 0, _ => fun _ => none
  | fuel + 1, place => do
    let footnotes ← get
    match footnotes.referenceAt? place with
    | none => return []
    | some reference =>
      match context.index.footnoteText? reference with
      | none => footnoteEntries context render fuel (place + 1)
      | some nodes =>
        let text ← renderAll render nodes
        let rest ← footnoteEntries context render fuel (place + 1)
        return footnoteEntry (place + 1) text :: rest

end Markup

namespace Context

open Markup

/-- How many nodes can show one another in a row without a circle. -/
def depth (context : Context) : Nat :=
  context.index.size

/-- Renders a node of the tree. -/
def render (context : Context) (node : Node) : Rendering (List Char) :=
  renderNode context context.depth node

/-- Renders the section of the footnotes that have numbers, and of those they refer to. -/
def footnotesSection (context : Context) : Rendering (List Char) := do
  let entries ← footnoteEntries context context.render (context.index.size + 1) 0
  if entries.isEmpty then
    return []
  else
    return Text.fill context.options.footnotesSectionTemplate.toList
      [(context.host.localize "Footnotes").toList, Text.joinLines entries]

/-- Puts the section of footnotes after contents, if there are any footnotes with a text. -/
def withFootnotes (context : Context) (contents : List Char) : Rendering (List Char) := do
  let notes ← context.footnotesSection
  if notes.isEmpty then
    return contents
  else
    return Text.trimEnd contents ++ ['\n', '\n'] ++ notes

/-- Puts contents into the frame of a document, which has no markup of its own. -/
def framed (_ : Context) (contents : List Char) : List Char :=
  contents

/-- Renders a tree with its section of footnotes. -/
def renderDocument (context : Context) (root : Node) : Rendering (List Char) := do
  let body ← context.render root
  let contents ← context.withFootnotes body
  return context.framed contents

/-- What a rendering gives when no footnote has a number yet. -/
def start {α : Type} (rendering : Rendering α) : Option α :=
  rendering.run' {}

end Context

end OutlineWiki
