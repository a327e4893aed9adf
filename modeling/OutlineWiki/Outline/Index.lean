import OutlineWiki.Outline.Node

/-!
Places of the nodes in a prepared tree.

The index of a tree lists the place of every node in document order, so that the
place of a node stands at the node's number. A place tells which nodes lie above the
node and where it stands in the list that owns it.
-/

namespace OutlineWiki

structure Place where
  node : Node
  /-- The nodes above, from the owner up to the root. -/
  above : List Node
  position : Nat
  previous : Option Node

namespace Node

mutual

/-- The places of a node and of all below it, given the place of the node. -/
def placesAt (above : List Node) (position : Nat) (previous : Option Node) : Node → List Place
  | ⟨kind, children, postBlank, name, caption, id⟩ =>
    let node : Node := ⟨kind, children, postBlank, name, caption, id⟩
    ⟨node, above, position, previous⟩ ::
      ((match caption with
        | none => []
        | some caption => placesIn (node :: above) 0 none caption) ++
      (match kind with
        | .headline _ title => placesIn (node :: above) 0 none title
        | .listItem _ (some tag) => placesIn (node :: above) 0 none tag
        | _ => []) ++
      placesIn (node :: above) 0 none children)

/-- The places of the nodes of a list from the given position on. -/
def placesIn (above : List Node) (position : Nat) (previous : Option Node) :
    List Node → List Place
  | [] => []
  | node :: nodes =>
    placesAt above position previous node ++ placesIn above (position + 1) (some node) nodes

end

/-- Whether the node gives the text of the footnote with the label. -/
def definesFootnote (label : String) (node : Node) : Bool :=
  match node.kind with
  | .footnoteDefinition own => own == label
  | .footnoteReference (some own) => own == label && !node.children.isEmpty
  | _ => false

end Node

/-- The places of all nodes of a prepared tree in document order. -/
structure Index where
  places : Array Place

namespace Index

def ofTree (root : Node) : Index :=
  ⟨(root.placesAt [] 0 none).toArray⟩

def size (index : Index) : Nat :=
  index.places.size

def place? (index : Index) (id : Nat) : Option Place :=
  index.places[id]?

/-- The node with a number. -/
def node? (index : Index) (id : Nat) : Option Node :=
  (index.place? id).map (·.node)

/-- The node that owns a node. -/
def parent? (index : Index) (node : Node) : Option Node :=
  (index.place? node.id).bind (·.above.head?)

/-- The nearest block above a node. -/
def parentBlock? (index : Index) (node : Node) : Option Node :=
  (index.place? node.id).bind (·.above.find? (·.kind.isBlock))

/-- Where a node stands in the list that owns it. -/
def position? (index : Index) (node : Node) : Option Nat :=
  (index.place? node.id).map (·.position)

/-- The node just before a node in the list that owns it. -/
def previous? (index : Index) (node : Node) : Option Node :=
  (index.place? node.id).bind (·.previous)

/-- The first node that gives the text of the footnote with a label. -/
def definition? (index : Index) (label : String) : Option Node :=
  (index.places.toList.find? (·.node.definesFootnote label)).map (·.node)

end Index

end OutlineWiki
