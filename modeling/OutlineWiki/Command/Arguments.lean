import OutlineWiki.Text.Lines

/-!
Arguments of the command line.

Arguments are read from left to right. A switch has a long name or a single letter, may
be given once, and may take a value, which follows it as an argument of its own or is
attached to it. After two dashes alone there are no more switches.
-/

namespace OutlineWiki

/-- What is asked for when a tree is converted. -/
structure ConvertArguments where
  input : String
  output : Option String := none
  config : Option String := none
  underlined : Bool := false
  tableClass : Option String := none
  noTableClass : Bool := false
  smartQuotes : Bool := false
  preserveBreaks : Bool := false
  bodyOnly : Bool := false
  deriving DecidableEq, Repr

/-- What the command is asked to do. -/
inductive Invocation where
  | convert (arguments : ConvertArguments)
  | info (input : String)
  | version
  | versionNumber
  deriving DecidableEq, Repr

inductive Switch where
  | verbose
  | output
  | config
  | underlined
  | tableClass
  | noTableClass
  | smartQuotes
  | preserveBreaks
  | bodyOnly
  deriving DecidableEq, Repr

namespace Switch

def longName : Switch → String
  | verbose => "verbose"
  | output => "output"
  | config => "config"
  | underlined => "setext"
  | tableClass => "table-class"
  | noTableClass => "no-table-class"
  | smartQuotes => "smart-quotes"
  | preserveBreaks => "preserve-breaks"
  | bodyOnly => "body-only"

def letter? : Switch → Option Char
  | verbose => some 'v'
  | output => some 'o'
  | config => some 'c'
  | _ => none

def takesValue : Switch → Bool
  | output | config | tableClass => true
  | _ => false

/-- Whether a switch accepts a value. A path is not empty. -/
def accepts (switch : Switch) (value : List Char) : Bool :=
  switch = tableClass || !value.isEmpty

/-- The switches of the conversion of a tree. -/
def ofConvert : List Switch :=
  [verbose, output, config, underlined, tableClass, noTableClass, smartQuotes, preserveBreaks,
    bodyOnly]

end Switch

/-- What has been read of the arguments: switches with their values, and the other arguments. -/
structure Given where
  switches : List (Switch × List Char) := []
  others : List String := []

namespace Given

def has (given : Given) (switch : Switch) : Bool :=
  (given.switches.lookup switch).isSome

def value? (given : Given) (switch : Switch) : Option String :=
  (given.switches.lookup switch).map String.ofList

/-- Adds a switch, which must not be given yet. -/
def add? (given : Given) (switch : Switch) (value : List Char) : Option Given :=
  if given.has switch then none else some { given with switches := (switch, value) :: given.switches }

/-- Adds a switch with a value that it accepts. -/
def addValue? (given : Given) (switch : Switch) (value : List Char) : Option Given :=
  if switch.accepts value then given.add? switch value else none

end Given

namespace Arguments

/-- Whether an argument can be the value of a switch before it. -/
def isValue (argument : String) : Bool :=
  argument.toList.head? != some '-' || argument = "-"

/-- Splits a long switch at its equals sign, if there is one. -/
def splitValue (text : List Char) : List Char × Option (List Char) :=
  let name := text.takeWhile (· != '=')
  let rest := text.dropWhile (· != '=')
  (name, if rest.isEmpty then none else some rest.tail)

/-- Reads the letters after a dash. The last switch may still wait for its value. -/
def readLetters (allowed : List Switch) (given : Given) :
    List Char → Option (Given × Option Switch)
  | [] => some (given, none)
  | c :: rest =>
    match allowed.find? fun switch => switch.letter? == some c with
    | none => none
    | some switch =>
      if switch.takesValue then
        match rest with
        | [] => some (given, some switch)
        | '=' :: value => (given.addValue? switch value).map (·, none)
        | value => (given.addValue? switch value).map (·, none)
      else
        (given.add? switch []).bind fun given => readLetters allowed given rest

/-- Reads a long switch, which may still wait for its value. -/
def readLong (allowed : List Switch) (given : Given) (text : List Char) :
    Option (Given × Option Switch) :=
  let (name, value) := splitValue text
  match allowed.find? fun switch => switch.longName.toList == name with
  | none => none
  | some switch =>
    match switch.takesValue, value with
    | true, some value => (given.addValue? switch value).map (·, none)
    | true, none => some (given, some switch)
    | false, none => (given.add? switch []).map (·, none)
    | false, some _ => none

/-- Reads an argument, after which a switch may wait for its value. -/
def readArgument (allowed : List Switch) (given : Given) (argument : String) :
    Option (Given × Option Switch) :=
  match argument.toList with
  | '-' :: '-' :: name => readLong allowed given name
  | '-' :: c :: letters => readLetters allowed given (c :: letters)
  | _ => some ({ given with others := given.others ++ [argument] }, none)

/-- Reads arguments, the first of which may be the value of a switch that waits for one. -/
def readAll (allowed : List Switch) : Given → Option Switch → List String → Option Given
  | given, none, [] => some given
  | _, some _, [] => none
  | given, some switch, argument :: rest =>
    if isValue argument then
      (given.addValue? switch argument.toList).bind fun given => readAll allowed given none rest
    else
      none
  | given, none, argument :: rest =>
    if argument = "--" then
      some { given with others := given.others ++ rest }
    else
      (readArgument allowed given argument).bind fun read => readAll allowed read.1 read.2 rest

/-- The single argument that is no switch, which is a path. -/
def input? (given : Given) : Option String :=
  match given.others with
  | [input] => if input.isEmpty then none else some input
  | _ => none

/-- Reads the arguments of the conversion of a tree. -/
def readConvert (arguments : List String) : Option Invocation := do
  let given ← readAll Switch.ofConvert {} none arguments
  let input ← input? given
  if given.has .tableClass && given.has .noTableClass then
    none
  else
    return .convert
      { input
        output := given.value? .output
        config := given.value? .config
        underlined := given.has .underlined
        tableClass := given.value? .tableClass
        noTableClass := given.has .noTableClass
        smartQuotes := given.has .smartQuotes
        preserveBreaks := given.has .preserveBreaks
        bodyOnly := given.has .bodyOnly }

/-- Reads the arguments of the statistics of a tree. -/
def readInfo (arguments : List String) : Option Invocation := do
  let given ← readAll [.verbose] {} none arguments
  let input ← input? given
  return .info input

/-- Reads the arguments of the version text, which are switches only. -/
def readVersion (arguments : List String) : Option Invocation := do
  let given ← readAll [.verbose] {} none arguments
  if given.others.isEmpty then some .version else none

/-- Reads the letters after a dash before any command: the request for the version ends them. -/
def readFirstLetters (verbose : Bool) : List Char → Option (Bool × Option Invocation)
  | [] => some (verbose, none)
  | 'V' :: _ => some (verbose, some .versionNumber)
  | 'v' :: rest => if verbose then none else readFirstLetters true rest
  | _ => none

/-- Reads arguments from the command on, or from the switches before it. -/
def readFrom (verbose : Bool) : List String → Option Invocation
  | [] => none
  | "convert" :: rest => readConvert rest
  | "info" :: rest => readInfo rest
  | "version" :: rest => readVersion rest
  | "--version" :: _ => some .versionNumber
  | "--verbose" :: rest => if verbose then none else readFrom true rest
  | argument :: rest =>
    match argument.toList with
    | '-' :: c :: letters =>
      match readFirstLetters verbose (c :: letters) with
      | none => none
      | some (_, some invocation) => some invocation
      | some (verbose, none) => readFrom verbose rest
    | _ => none

end Arguments

/-- What the arguments of the command line ask for, unless they are in disorder. -/
def Invocation.ofArguments (arguments : List String) : Option Invocation :=
  Arguments.readFrom false arguments

end OutlineWiki
