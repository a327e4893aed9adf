import OutlineWiki.Markup.Render
import OutlineWiki.Outline.Prepare
import OutlineWiki.Reference.Survey

/-!
Export of a tree to wiki markup.

There is no markup for a tree whose links make a node show itself.
-/

namespace OutlineWiki

/-- The context of an export of a prepared tree that answers all questions itself. -/
def Context.ofTree (root : Node) (options : Options) (externalIds : List (String × String)) :
    Context :=
  ⟨options, (Survey.ofTree root options externalIds).host, Index.ofTree root⟩

namespace Node

/-- The markup of a tree with its footnotes. -/
def wikiMarkup? (root : Node) (options : Options) : Option (List Char) :=
  let prepared := root.prepare
  let context := Context.ofTree prepared options []
  Context.start (context.renderDocument prepared)

/-- Exports the tree that is held, which is prepared in place on the way. -/
def exportHeld (options : Options) : StateM Node (Option (List Char)) := do
  let root ← get
  let prepared := root.prepare
  set prepared
  let context := Context.ofTree prepared options []
  return Context.start (context.renderDocument prepared)

/-- The markup of a tree without the section of footnotes. -/
def bodyMarkup? (root : Node) (options : Options) : Option (List Char) :=
  let prepared := root.prepare
  let context := Context.ofTree prepared options []
  Context.start (context.render prepared)

end Node

end OutlineWiki
