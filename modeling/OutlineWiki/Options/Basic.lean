import OutlineWiki.Text.Case

/-!
Options of an export.
-/

namespace OutlineWiki

/-- How a headline is laid out: between marks, or over a rule. -/
inductive HeadlineStyle where
  | marked
  | underlined
  deriving DecidableEq, Repr

namespace HeadlineStyle

def name : HeadlineStyle → String
  | marked => "atx"
  | underlined => "setext"

/-- The style with a name, in either case of letters. Unknown names stand for marks. -/
def ofName (name : String) : HeadlineStyle :=
  if Text.sameLatin name.toList "setext".toList then underlined else marked

end HeadlineStyle

structure Options where
  withTodoKeywords : Bool := true
  withTags : Bool := true
  withPriority : Bool := false
  withSmartQuotes : Bool := false
  withSpecialStrings : Bool := true
  /-- Line breaks within a paragraph are kept as hard breaks. -/
  preserveBreaks : Bool := false
  headlineStyle : HeadlineStyle := .marked
  defaultTableClass : Option String := some "wikitable"
  /-- A template for the marker of a footnote, given its number. -/
  footnoteReferenceFormat : String := "<sup>%s</sup>"
  /-- What stands between the markers of two references in a row. -/
  footnoteSeparator : String := "<sup>, </sup>"
  /-- A template for the section of footnotes, given its title and its entries. -/
  footnotesSectionTemplate : String := "== %s ==\n\n%s"
  /-- What replaces the extension of another outline in a link to it. -/
  outputExtension : String := "wiki"
  inlineImageExtensions : List String :=
    ["png", "jpg", "jpeg", "gif", "svg", "webp", "tif", "tiff", "bmp", "xpm", "pbm", "pgm", "ppm"]
  language : String := "en"
  /-- Wordings of fixed strings that take the place of the built-in ones, one for a key. -/
  wordings : List (String × String) := []
  deriving DecidableEq, Repr

/-- Puts a value at a key, in the place of the value that stands there. -/
def putWording (entries : List (String × String)) (key value : String) :
    List (String × String) :=
  match entries with
  | [] => [(key, value)]
  | (other, old) :: rest =>
    if other = key then (key, value) :: rest else (other, old) :: putWording rest key value

namespace Options

def setHeadlineStyle (options : Options) (style : HeadlineStyle) : Options :=
  { options with headlineStyle := style }

def setTableClass (options : Options) (name : Option String) : Options :=
  { options with defaultTableClass := name }

def setTodoKeywords (options : Options) (enabled : Bool) : Options :=
  { options with withTodoKeywords := enabled }

def setTags (options : Options) (enabled : Bool) : Options :=
  { options with withTags := enabled }

def setPriority (options : Options) (enabled : Bool) : Options :=
  { options with withPriority := enabled }

def setSmartQuotes (options : Options) (enabled : Bool) : Options :=
  { options with withSmartQuotes := enabled }

def setSpecialStrings (options : Options) (enabled : Bool) : Options :=
  { options with withSpecialStrings := enabled }

def setPreserveBreaks (options : Options) (enabled : Bool) : Options :=
  { options with preserveBreaks := enabled }

def setFootnoteFormat (options : Options) (format separator : String) : Options :=
  { options with footnoteReferenceFormat := format, footnoteSeparator := separator }

def setFootnotesSection (options : Options) (template : String) : Options :=
  { options with footnotesSectionTemplate := template }

/-- Sets the output extension, without the dots that it may start with. -/
def setOutputExtension (options : Options) (extension : String) : Options :=
  { options with outputExtension := String.ofList (extension.toList.dropWhile (· == '.')) }

def setLanguage (options : Options) (language : String) : Options :=
  { options with language }

/-- Sets the wording of one fixed string. -/
def setWording (options : Options) (key value : String) : Options :=
  { options with wordings := putWording options.wordings key value }

end Options

end OutlineWiki
