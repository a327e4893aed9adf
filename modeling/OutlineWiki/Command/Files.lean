import OutlineWiki.Text.Lines

/-!
Files as a command sees them.

A command reads and writes files through a file system, which may be the real one or a
list of files in one directory. In such a list the directories are those that files lie
in, and paths are followed step by step from the directory that holds all of them.
-/

namespace OutlineWiki

/-- Why a file cannot be read or written. -/
inductive FileError where
  | notFound
  | notDirectory
  | isDirectory
  | notText
  | other (message : String)
  deriving DecidableEq, Repr

def FileError.message : FileError → String
  | notFound => "No such file or directory (os error 2)"
  | notDirectory => "Not a directory (os error 20)"
  | isDirectory => "Is a directory (os error 21)"
  | notText => "stream did not contain valid UTF-8"
  | other message => message

/-- How files are read and written. Each read or write succeeds or fails as a whole. -/
structure FileSystem (m : Type → Type) where
  read : String → m (Except FileError ByteArray)
  write : String → ByteArray → m (Except FileError Unit)

/-- Reads a file that holds text. -/
def FileSystem.readText {m : Type → Type} [Monad m] (system : FileSystem m) (path : String) :
    m (Except FileError String) := do
  match ← system.read path with
  | .error error => return .error error
  | .ok bytes =>
    match String.fromUTF8? bytes with
    | some text => return .ok text
    | none => return .error .notText

/-- Writes a text to a file, which is made if it is not there. -/
def FileSystem.writeText {m : Type → Type} (system : FileSystem m) (path : String)
    (text : List Char) : m (Except FileError Unit) :=
  system.write path (String.ofList text).toUTF8

/-- The files of a directory, each by the names that lead to it. -/
structure Files where
  entries : List (List String × ByteArray) := []

/-- Where a path leads. -/
inductive Spot where
  | file (names : List String)
  | directory
  /-- There is a directory for a file with the last name, but nothing has that name. -/
  | free (names : List String)

namespace Files

def content? (files : Files) (names : List String) : Option ByteArray :=
  files.entries.lookup names

/-- Whether some file lies below the names. -/
def isDirectory (files : Files) (names : List String) : Bool :=
  names.isEmpty || files.entries.any fun entry =>
    names.isPrefixOf entry.1 && names.length < entry.1.length

/-- Follows the steps of a path. There is nothing to be found above the files. -/
def follow (files : Files) (names : Option (List String)) : List String → Except FileError Spot
  | [] => .ok .directory
  | step :: rest =>
    if step = "." then
      files.follow names rest
    else if step = ".." then
      files.follow ((names.filter fun names => !names.isEmpty).map List.dropLast) rest
    else
      match names with
      | none => .error .notFound
      | some names =>
        let next := names ++ [step]
        if (files.content? next).isSome then
          if rest.isEmpty then .ok (.file next) else .error .notDirectory
        else if files.isDirectory next then
          files.follow (some next) rest
        else if rest.isEmpty then
          .ok (.free next)
        else
          .error .notFound

/-- The names in a path. -/
def names (path : String) : List String :=
  ((Text.splitOn '/' path.toList).filter fun piece => !piece.isEmpty).map String.ofList

/-- Whether a path ends in a slash, and so asks for a directory. -/
def endsInSlash (path : String) : Bool :=
  path.toList.getLast? = some '/'

/-- Where the steps of a path lead from the place where the path starts. -/
def locate (files : Files) (path : String) (steps : List String) : Except FileError Spot :=
  if path.isEmpty then .error .notFound
  else files.follow (if path.toList.head? = some '/' then none else some []) steps

def read (files : Files) (path : String) : Except FileError ByteArray :=
  match files.locate path (names path ++ if endsInSlash path then ["."] else []) with
  | .error error => .error error
  | .ok .directory => .error .isDirectory
  | .ok (.free _) => .error .notFound
  | .ok (.file names) =>
    match files.content? names with
    | some bytes => .ok bytes
    | none => .error .notFound

/-- Puts content in the place of what the names lead to. -/
def put (files : Files) (names : List String) (bytes : ByteArray) : Files :=
  ⟨(files.entries.filter fun entry => entry.1 != names) ++ [(names, bytes)]⟩

/-- Why no file can be written at a path that ends in a slash. Only what stands before the
last name matters. -/
def slashError (files : Files) (path : String) : FileError :=
  match files.locate path (names path).dropLast with
  | .error error => error
  | .ok .directory => .isDirectory
  | .ok (.free _) => .notFound
  | .ok (.file _) => .notDirectory

def write (files : Files) (path : String) (bytes : ByteArray) : Except FileError Files :=
  if endsInSlash path then
    .error (files.slashError path)
  else
    match files.locate path (names path) with
    | .error error => .error error
    | .ok .directory => .error .isDirectory
    | .ok (.free names) => .ok (files.put names bytes)
    | .ok (.file names) => .ok (files.put names bytes)

/-- The file system of a list of files, which is kept as a state. -/
def system : FileSystem (StateM Files) where
  read path := do
    let files ← get
    return files.read path
  write path bytes := do
    let files ← get
    match files.write path bytes with
    | .error error => return .error error
    | .ok files =>
      set files
      return .ok ()

end Files

end OutlineWiki
