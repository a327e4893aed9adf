import OutlineWiki.Options.Basic
import OutlineWiki.Reference.CodeLabel
import OutlineWiki.Reference.Host

/-!
The answers about a document that the document itself gives.

A survey goes once through the nodes of a prepared tree in document order. It numbers
the headlines and the captioned elements, and finds targets by their identifiers, names,
titles and texts. Where several targets answer a question, the first one counts.
-/

namespace OutlineWiki

namespace Node

/-- What a headline says beside its title, unless it stands for the section of footnotes. -/
def numberedHeadline? (node : Node) : Option HeadlineInfo :=
  match node.kind with
  | .headline info _ => if info.footnoteSection then none else some info
  | _ => none

/-- The title of a headline with one space between words. -/
def titleText (node : Node) : List Char :=
  Text.normalizeBlanks (plainTexts node.kind.title)

def isRadioTarget (node : Node) : Bool :=
  match node.kind with
  | .radioTarget => true
  | _ => false

/-- The form in which radio targets and the links to them are compared. -/
def radioForm (text : List Char) : List Char :=
  Text.lowercase (Text.trim text)

/-- The literal text of a block whose lines can be referred to, and whether its lines count. -/
def labelledCode? (node : Node) : Option (List Char × Bool) :=
  match node.kind with
  | .sourceBlock _ value numberLines => some (value.toList, numberLines)
  | .exampleBlock value => some (value.toList, false)
  | _ => none

def linkPath? (node : Node) : Option String :=
  match node.kind with
  | .link _ path => some path
  | _ => none

end Node

/-- The section number after a given one for a headline at a depth of at least one. -/
def nextSectionNumber (previous : List Nat) (depth : Nat) : List Nat :=
  (List.range (depth - 1)).map (fun i => previous.getD i 0) ++
    [previous.getD (depth - 1) 0 + 1]

/-- The numbers of headlines among nodes in document order, by the numbers of the nodes. -/
def sectionNumbers (previous : List Nat) : List Node → List (Nat × List Nat)
  | [] => []
  | node :: nodes =>
    match node.numberedHeadline? with
    | none => sectionNumbers previous nodes
    | some info =>
      let number := nextSectionNumber previous info.depth
      (node.id, number) :: sectionNumbers number nodes

/-- The numbers of captioned elements, counted for each kind, after elements of given kinds. -/
def elementNumbers (seen : List String) : List Node → List (Nat × Nat)
  | [] => []
  | node :: nodes =>
    if node.caption.isSome then
      (node.id, seen.count node.kind.name + 1) :: elementNumbers (node.kind.name :: seen) nodes
    else
      elementNumbers seen nodes

/-- A line of code that can be referred to. -/
structure LabelledLine where
  label : List Char
  line : Nat
  /-- Whether the line is referred to by its number instead of its label. -/
  isNumbered : Bool
  deriving DecidableEq

/-- The labelled lines of a node. -/
def Node.labelledLines (node : Node) : List LabelledLine :=
  match node.labelledCode? with
  | none => []
  | some (value, isNumbered) =>
    (CodeLabel.ofLines 1 (Text.lines value)).map fun entry => ⟨entry.1, entry.2, isNumbered⟩

/-- What is known of a document. -/
structure Survey where
  nodes : List Node
  sections : List (Nat × List Nat)
  elements : List (Nat × Nat)
  titles : List (List Char × Node)
  radios : List (List Char × Node)
  labelledLines : List LabelledLine
  externalIds : List (String × String)
  language : String
  wordings : List (String × String)

namespace Survey

/-- Surveys a prepared tree, given the files that hold identifiers of other documents. -/
def ofTree (root : Node) (options : Options) (externalIds : List (String × String)) : Survey :=
  let nodes := root.walk
  { nodes
    sections := sectionNumbers [] nodes
    elements := elementNumbers [] nodes
    titles := (nodes.filter fun node => node.numberedHeadline?.isSome).map
      fun node => (node.titleText, node)
    radios := (nodes.filter Node.isRadioTarget).map
      fun node => (Node.radioForm node.plainText, node)
    labelledLines := nodes.flatMap Node.labelledLines
    externalIds
    language := options.language
    wordings := options.wordings }

/-- The first headline whose identifier, as chosen, is the given one. -/
def headlineWith? (survey : Survey) (identifier : HeadlineInfo → Option String) (path : String) :
    Option Node :=
  survey.nodes.find? fun node => (node.numberedHeadline?.bind identifier) == some path

/-- Where a link to an identifier leads: to a headline of the document before another file. -/
def crossReference (survey : Survey) (link : Node) : Option CrossReference :=
  match link.kind with
  | .link type path =>
    let identifier : HeadlineInfo → Option String :=
      if type.tag = "custom-id" then (·.customId) else (·.id)
    match survey.headlineWith? identifier path with
    | some node => some (.internal node)
    | none => (survey.externalIds.lookup path).map .external
  | _ => none

/-- The first radio target with the text of a link, in either case of letters. -/
def radioTarget (survey : Survey) (link : Node) : Option Node :=
  match link.linkPath? with
  | none => none
  | some path =>
    (survey.radios.find? fun entry => entry.1 == Node.radioForm path.toList).map (·.2)

/-- The first headline with a title, up to the blanks between its words. -/
def headlineTitled? (survey : Survey) (title : List Char) : Option Node :=
  (survey.titles.find? fun entry => entry.1 == Text.normalizeBlanks title).map (·.2)

/-- The target of a link that gives a title after a star, or else a name or a title. -/
def fuzzyTarget (survey : Survey) (link : Node) : Option Node :=
  match link.linkPath? with
  | none => none
  | some path =>
    match path.toList with
    | '*' :: title => survey.headlineTitled? title
    | title =>
      match survey.nodes.find? fun node => node.name == some path with
      | some node => some node
      | none => survey.headlineTitled? title

/-- The number of a headline or of a captioned element. -/
def ordinal (survey : Survey) (node : Node) : Option Ordinal :=
  match survey.sections.lookup node.id with
  | some numbers => some (.dotted numbers)
  | none => (survey.elements.lookup node.id).map .single

/-- The template that a description makes by leaving out the label it mentions. -/
def codeTemplate (label : List Char) : Option (List Char) → List Char
  | none => "%s".toList
  | some description =>
    let wrapped := '(' :: label ++ [')']
    if Text.contains wrapped description then
      Text.replaceFirst wrapped "%s".toList description
    else
      Text.replaceFirst label "%s".toList description

/-- The template for a link to a labelled line, and the number or label of the line. -/
def codeReference (survey : Survey) (label : List Char) (description : Option (List Char)) :
    Option (List Char × List Char) :=
  (survey.labelledLines.find? fun line => line.label == label).map fun line =>
    (codeTemplate label description, if line.isNumbered then digits line.line else label)

/-- Wordings of fixed strings by language and key. -/
def builtInStrings : List (String × String × String) :=
  [("de", "Footnotes", "Fußnoten"),
    ("de", "See section %s", "siehe Abschnitt %s"),
    ("es", "Footnotes", "Notas al pie de página"),
    ("es", "See section %s", "Véase la sección %s"),
    ("fr", "Footnotes", "Notes de bas de page"),
    ("fr", "See section %s", "cf. section %s")]

/-- The wording of a fixed string: as the options give it, or in the language, or as it is. -/
def localize (survey : Survey) (key : String) : String :=
  match survey.wordings.lookup key with
  | some value => value
  | none =>
    let builtIn := builtInStrings.find? fun entry =>
      Text.sameLatin entry.1.toList survey.language.toList && entry.2.1 == key
    (builtIn.map (·.2.2)).getD key

/-- The host that answers from the document. -/
def host (survey : Survey) : Host where
  crossReference := survey.crossReference
  radioTarget := survey.radioTarget
  fuzzyTarget := survey.fuzzyTarget
  ordinal := survey.ordinal
  codeReference := survey.codeReference
  localize := survey.localize

end Survey

end OutlineWiki
