import OutlineWiki.Text.Case

/-!
Types of links.

A link type is read from its tag without regard to the case of `A` to `Z`. A tag
that names no known type is kept as it is written.
-/

namespace OutlineWiki

inductive LinkType where
  | customId
  | id
  | file
  | http
  | https
  | ftp
  | mailto
  | coderef
  | radio
  | fuzzy
  | image
  | other (tag : String)
  deriving DecidableEq, Repr

namespace LinkType

/-- The types that have a tag of their own. -/
def known : List LinkType :=
  [customId, id, file, http, https, ftp, mailto, coderef, radio, fuzzy, image]

/-- The tag as it stands in a link. -/
def tag : LinkType → String
  | customId => "custom-id"
  | id => "id"
  | file => "file"
  | http => "http"
  | https => "https"
  | ftp => "ftp"
  | mailto => "mailto"
  | coderef => "coderef"
  | radio => "radio"
  | fuzzy => "fuzzy"
  | image => "image"
  | other tag => tag

/-- The type that a tag names. -/
def ofTag (tag : String) : LinkType :=
  (known.find? fun type => Text.sameLatin type.tag.toList tag.toList).getD (other tag)

/-- Whether a link of this type is written as its tag, a colon and its path. -/
def isUrl : LinkType → Bool
  | http | https | ftp | mailto => true
  | _ => false

def isOther : LinkType → Bool
  | other _ => true
  | _ => false

end LinkType

end OutlineWiki
