import OutlineWiki.Outline.Node

/-!
Building trees by hand.
-/

namespace OutlineWiki.Node

/-- A run of plain text. -/
def ofValue (value : String) : Node :=
  { kind := .plainText value }

/-- A node of a kind with children. -/
def ofKind (kind : Kind Node) (children : List Node) : Node :=
  { kind, children }

def document (children : List Node) : Node :=
  ofKind .document children

def paragraph (children : List Node) : Node :=
  ofKind .paragraph children

/-- A headline with a title of plain text. -/
def headline (level : UInt8) (title : String) (children : List Node) : Node :=
  ofKind (.headline { level } [ofValue title]) children

/-- A link with a description of plain text, if any. -/
def link (type : LinkType) (path : String) (description : Option String) : Node :=
  ofKind (.link type path) (description.toList.map ofValue)

/-- A reference to the footnote with a label. -/
def footnoteReference (label : String) : Node :=
  ofKind (.footnoteReference (some label)) []

/-- The text of the footnote with a label. -/
def footnoteDefinition (label : String) (children : List Node) : Node :=
  ofKind (.footnoteDefinition label) children

def withPostBlank (node : Node) (count : UInt32) : Node :=
  { node with postBlank := some count }

def withName (node : Node) (name : String) : Node :=
  { node with name := some name }

/-- The node with a caption of plain text. -/
def withCaption (node : Node) (caption : String) : Node :=
  { node with caption := some [ofValue caption] }

end OutlineWiki.Node
