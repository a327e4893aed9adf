import OutlineWiki.Text.Case
import OutlineWiki.Text.Lines

/-!
Paths of segments between slashes.

Empty segments and single dots name nothing. A double dot names the directory above,
and above the root there is only the root.
-/

namespace OutlineWiki.Path

open OutlineWiki.Text

def isAbsolute (path : List Char) : Bool :=
  path.head? == some '/'

/-- The segments of a path that name something. -/
def segments (path : List Char) : List (List Char) :=
  (splitOn '/' path).filter fun segment => !(segment.isEmpty || segment == ['.'])

/-- Follows one segment down from a directory, whose own segments are in reverse order. -/
def enter (directory : List (List Char)) (segment : List Char) : List (List Char) :=
  if segment == ['.', '.'] then directory.tail else segment :: directory

/-- The absolute path with the same meaning and without dot segments or spare slashes. -/
def normalize (path : List Char) : List Char :=
  '/' :: join ['/'] ((segments path).foldl enter []).reverse

/-- The file name at the end of a path, if the path ends in a name. -/
def fileName? (path : List Char) : Option (List Char) :=
  match (segments path).getLast? with
  | none => none
  | some name => if name == ['.', '.'] then none else some name

/-- What follows the last dot of the file name when something precedes that dot. -/
def extension? (path : List Char) : Option (List Char) :=
  match fileName? path with
  | none => none
  | some name =>
    let parts := splitOn '.' name
    if parts.length < 2 || parts.dropLast == [[]] then none else parts.getLast?

/-- Whether the file name has one of the extensions, in either case of letters. -/
def hasExtension (path : List Char) (extensions : List (List Char)) : Bool :=
  match extension? path with
  | none => false
  | some found => extensions.any fun extension => sameLatin extension found

/-- Puts an extension in the place of a final `.org`, in either case of letters. -/
def replaceExtension (path extension : List Char) : List Char :=
  let stem := path.take (path.length - 4)
  if sameLatin (path.drop (path.length - 4)) ".org".toList then
    stem ++ '.' :: extension
  else
    path

end OutlineWiki.Path
