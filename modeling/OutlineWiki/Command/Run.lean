import OutlineWiki.Command.Arguments
import OutlineWiki.Command.Files
import OutlineWiki.Command.Statistics
import OutlineWiki.Export
import OutlineWiki.Options.Json

/-!
What the command does.

A command reads its options before its tree, and writes nothing unless all of that and
the rendering succeed. What it prints depends on the files it reads alone.
-/

namespace OutlineWiki

/-- Why a command fails. -/
inductive Failure where
  | reading (error : FileError)
  | writing (error : FileError)
  | tree (error : TreeError)
  | options (error : DecodeError)
  /-- Links of the tree make a node show itself. -/
  | circle

namespace Failure

/-- What the message of a failure begins with. -/
def heading : Failure → String
  | reading _ => "I/O error: "
  | writing _ => ""
  | tree (.decode _) => "JSON error: "
  | tree .unknownRoot => "Invalid tree: "
  | options _ => "Invalid configuration: "
  | circle => "Invalid tree: "

/-- What is wrong, without the heading. -/
def detail : Failure → List Char
  | reading error | writing error => error.message.toList
  | tree (.decode error) | options error => error.message?.getD "malformed text".toList
  | tree .unknownRoot => "root node has an unknown type".toList
  | circle => "links lead in a circle".toList

def message (failure : Failure) : List Char :=
  failure.heading.toList ++ failure.detail

end Failure

section

variable {m : Type → Type} [Monad m]

/-- Reads a tree from a file. -/
def readTree (system : FileSystem m) (path : String) : ExceptT Failure m Node := do
  match ← system.readText path with
  | .error error => throw (.reading error)
  | .ok text =>
    match Node.ofText text.toList with
    | .error error => throw (.tree error)
    | .ok root => return root

/-- Reads options from a file. -/
def readOptionsFile (system : FileSystem m) (path : String) : ExceptT Failure m Options := do
  match ← system.readText path with
  | .error error => throw (.reading error)
  | .ok text =>
    match Options.ofText text.toList with
    | .error error => throw (.options error)
    | .ok options => return options

/-- Requires a rendering to have come to an end. -/
def rendered : Option (List Char) → ExceptT Failure m (List Char)
  | none => throw .circle
  | some markup => return markup

/-- The markup of a tree in a file. -/
def markupOfFile (system : FileSystem m) (path : String) (options : Options) :
    ExceptT Failure m (List Char) := do
  let root ← readTree system path
  rendered (root.wikiMarkup? options)

namespace ConvertArguments

/-- The options of a file, or the usual ones, with what the arguments ask for. -/
def overlay (arguments : ConvertArguments) (options : Options) : Options :=
  let options := if arguments.underlined then options.setHeadlineStyle .underlined else options
  let options :=
    if arguments.noTableClass then options.setTableClass none
    else if arguments.tableClass.isSome then options.setTableClass arguments.tableClass
    else options
  let options := if arguments.smartQuotes then options.setSmartQuotes true else options
  if arguments.preserveBreaks then options.setPreserveBreaks true else options

/-- The options that the arguments ask for. -/
def options (system : FileSystem m) (arguments : ConvertArguments) :
    ExceptT Failure m Options := do
  match arguments.config with
  | none => return arguments.overlay {}
  | some path =>
    let options ← readOptionsFile system path
    return arguments.overlay options

/-- The markup that the arguments ask for. -/
def markup (system : FileSystem m) (arguments : ConvertArguments) :
    ExceptT Failure m (List Char) := do
  let options ← arguments.options system
  let root ← readTree system arguments.input
  rendered (if arguments.bodyOnly then root.bodyMarkup? options else root.wikiMarkup? options)

/-- Converts a tree, and gives what is printed. -/
def run (system : FileSystem m) (arguments : ConvertArguments) :
    ExceptT Failure m (List Char) := do
  let markup ← arguments.markup system
  match arguments.output with
  | none => return markup
  | some path =>
    match ← system.writeText path markup with
    | .error error => throw (.writing error)
    | .ok () => return "✓ Converted to wiki markup: ".toList ++ path.toList ++ ['\n']

end ConvertArguments

end

/-- The name and version of the command. -/
def versionLine : List Char :=
  "wikidown 0.1.0\n".toList

def versionText : List Char :=
  versionLine ++
    "Document tree to MediaWiki-style markup export\n\nInput: JSON document trees\n".toList

/-- Does what is asked for, and gives what is printed. -/
def Invocation.run {m : Type → Type} [Monad m] (system : FileSystem m) :
    Invocation → ExceptT Failure m (List Char)
  | convert arguments => arguments.run system
  | info input => do
    let root ← readTree system input
    return Statistics.text input root
  | version => return versionText
  | versionNumber => return versionLine

end OutlineWiki
