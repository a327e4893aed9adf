import OutlineWiki.Outline.LinkType

/-!
Kinds of outline nodes with their attributes.

A kind is a shape over the nodes that it holds itself: a headline owns the nodes of
its title and a list item may own the nodes of its tag. All other nodes of a tree
stand in the children and captions of the nodes around the kinds.
-/

namespace OutlineWiki

inductive ListType where
  | unordered
  | ordered
  | descriptive
  deriving DecidableEq, Repr

inductive Checkbox where
  | none
  | on
  | off
  | partly
  deriving DecidableEq, Repr

inductive RowType where
  | standard
  | rule
  deriving DecidableEq, Repr

/-- A table is given by rows and cells or as a drawing in plain text. -/
inductive TableType where
  | rows
  | drawing
  deriving DecidableEq, Repr

/-- What a headline says beside its title. -/
structure HeadlineInfo where
  level : UInt8
  todo : Option String := none
  priority : Option Char := none
  tags : List String := []
  customId : Option String := none
  id : Option String := none
  footnoteSection : Bool := false
  deriving DecidableEq, Repr

/-- The depth of the section below the headline, at least one. -/
def HeadlineInfo.depth (info : HeadlineInfo) : Nat :=
  max info.level.toNat 1

/-- Kinds of nodes over the type of the nodes in titles and tags. -/
inductive Kind (α : Type) where
  | document
  | sectionBody
  | headline (info : HeadlineInfo) (title : List α)
  | paragraph
  | plainList (type : ListType)
  | listItem (checkbox : Checkbox) (tag : Option (List α))
  | table (type : TableType) (value : Option String)
  | tableRow (type : RowType)
  | tableCell
  | link (type : LinkType) (path : String)
  | footnoteReference (label : Option String)
  | footnoteDefinition (label : String)
  | bold
  | italic
  | code (value : String)
  | verbatim (value : String)
  | lineBreak
  | horizontalRule
  | quoteBlock
  | exampleBlock (value : String)
  | sourceBlock (language : Option String) (value : String) (numberLines : Bool)
  | fixedWidth (value : String)
  | radioTarget
  | comment
  | plainText (value : String)
  | unknown
  deriving DecidableEq, Repr

namespace Kind

variable {α β : Type}

/-- The name of a kind in a written tree. -/
def name : Kind α → String
  | document => "document"
  | sectionBody => "section"
  | headline _ _ => "headline"
  | paragraph => "paragraph"
  | plainList _ => "plain_list"
  | listItem _ _ => "list_item"
  | table _ _ => "table"
  | tableRow _ => "table_row"
  | tableCell => "table_cell"
  | link _ _ => "link"
  | footnoteReference _ => "footnote_reference"
  | footnoteDefinition _ => "footnote_definition"
  | bold => "bold"
  | italic => "italic"
  | code _ => "code"
  | verbatim _ => "verbatim"
  | lineBreak => "line_break"
  | horizontalRule => "horizontal_rule"
  | quoteBlock => "quote_block"
  | exampleBlock _ => "example_block"
  | sourceBlock _ _ _ => "src_block"
  | fixedWidth _ => "fixed_width"
  | radioTarget => "radio_target"
  | comment => "comment"
  | plainText _ => "plain_text"
  | unknown => "unknown"

/-- Blocks stand on lines of their own; all other kinds run on within a line. -/
def isBlock : Kind α → Bool
  | document | sectionBody | headline _ _ | paragraph | plainList _ | listItem _ _ | table _ _
  | tableRow _ | footnoteDefinition _ | horizontalRule | quoteBlock | exampleBlock _
  | sourceBlock _ _ _ | fixedWidth _ | comment => true
  | tableCell | link _ _ | footnoteReference _ | bold | italic | code _ | verbatim _
  | lineBreak | radioTarget | plainText _ | unknown => false

/-- Blocks that are laid out line by line and keep the blank lines they are given. -/
def isLine : Kind α → Bool
  | listItem _ _ | tableRow _ => true
  | _ => false

def isFootnoteReference : Kind α → Bool
  | footnoteReference _ => true
  | _ => false

def isPlainList : Kind α → Bool
  | plainList _ => true
  | _ => false

def isDocument : Kind α → Bool
  | document => true
  | _ => false

def isUnknown : Kind α → Bool
  | unknown => true
  | _ => false

/-- The text that a node of this kind carries itself, as running text. -/
def ownText : Kind α → List Char
  | plainText value | code value | verbatim value => value.toList
  | _ => []

/-- The title of a headline, and no nodes otherwise. -/
def title : Kind α → List α
  | headline _ title => title
  | _ => []

/-- The lists of nodes that the kind holds itself, absent tags left out. -/
def lists : Kind α → List (List α)
  | headline _ title => [title]
  | listItem _ (some tag) => [tag]
  | _ => []

/-- The kind with no nodes left in its title or tag. -/
def bare : Kind α → Kind β
  | document => document
  | sectionBody => sectionBody
  | headline info _ => headline info []
  | paragraph => paragraph
  | plainList type => plainList type
  | listItem checkbox tag => listItem checkbox (tag.map fun _ => [])
  | table type value => table type value
  | tableRow type => tableRow type
  | tableCell => tableCell
  | link type path => link type path
  | footnoteReference label => footnoteReference label
  | footnoteDefinition label => footnoteDefinition label
  | bold => bold
  | italic => italic
  | code value => code value
  | verbatim value => verbatim value
  | lineBreak => lineBreak
  | horizontalRule => horizontalRule
  | quoteBlock => quoteBlock
  | exampleBlock value => exampleBlock value
  | sourceBlock language value numberLines => sourceBlock language value numberLines
  | fixedWidth value => fixedWidth value
  | radioTarget => radioTarget
  | comment => comment
  | plainText value => plainText value
  | unknown => unknown

/-- Puts a node in the place of each node that the kind holds. -/
def map (f : α → β) : Kind α → Kind β
  | headline info title => headline info (title.map f)
  | listItem checkbox tag => listItem checkbox (tag.map (·.map f))
  | kind => kind.bare

/-- The kind with the nodes it holds forgotten, but not their number. -/
def outline (kind : Kind α) : Kind Unit :=
  kind.map fun _ => ()

theorem lists_map (f : α → β) (kind : Kind α) :
    (kind.map f).lists = kind.lists.map (·.map f) := by
  cases kind with
  | listItem checkbox tag => cases tag <;> rfl
  | _ => rfl

theorem title_map (f : α → β) (kind : Kind α) : (kind.map f).title = kind.title.map f := by
  cases kind <;> rfl

theorem name_map (f : α → β) (kind : Kind α) : (kind.map f).name = kind.name := by
  cases kind <;> rfl

theorem isBlock_map (f : α → β) (kind : Kind α) : (kind.map f).isBlock = kind.isBlock := by
  cases kind <;> rfl

theorem map_id (kind : Kind α) : kind.map id = kind := by
  cases kind with
  | listItem checkbox tag => cases tag <;> simp [map]
  | _ => simp [map, bare]

theorem map_map {γ : Type} (g : β → γ) (f : α → β) (kind : Kind α) :
    (kind.map f).map g = kind.map (g ∘ f) := by
  cases kind with
  | listItem checkbox tag => cases tag <;> simp [map]
  | _ => simp [map, bare]

theorem map_congr {f g : α → β} {kind : Kind α}
    (h : ∀ list ∈ kind.lists, ∀ a ∈ list, f a = g a) : kind.map f = kind.map g := by
  cases kind with
  | headline info title => simp_all [map, lists]
  | listItem checkbox tag => cases tag <;> simp_all [map, lists]
  | _ => rfl

end Kind

end OutlineWiki
