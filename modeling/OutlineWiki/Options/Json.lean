import OutlineWiki.Json.Basic
import OutlineWiki.Json.Fields
import OutlineWiki.Options.Basic

/-!
Options as JSON.

Options are read from an object, where a missing key means the default, or from an
array of the values in order. Keys that are not known are passed over, whatever JSON
value they have.
-/

namespace OutlineWiki

/-- Reads wordings of fixed strings. The last of several wordings for a key counts. -/
def asWordings (scan : Scan) : Decoded (List (String × String)) :=
  (scan.asEntries Scan.asString).map fun entries =>
    entries.foldl (fun known entry => putWording known entry.1 entry.2) []

def asHeadlineStyle (scan : Scan) : Decoded HeadlineStyle :=
  scan.asString.map HeadlineStyle.ofName

namespace Options

def fields : Fields Options :=
  let default : Options := {}
  Options.mk
    <$> .optional "with-todo-keywords" default.withTodoKeywords Scan.asBool
    <*> .optional "with-tags" default.withTags Scan.asBool
    <*> .optional "with-priority" default.withPriority Scan.asBool
    <*> .optional "with-smart-quotes" default.withSmartQuotes Scan.asBool
    <*> .optional "with-special-strings" default.withSpecialStrings Scan.asBool
    <*> .optional "preserve-breaks" default.preserveBreaks Scan.asBool
    <*> .optional "headline-style" default.headlineStyle asHeadlineStyle
    <*> .optional "default-table-class" default.defaultTableClass (Scan.asOption Scan.asString)
    <*> .optional "footnote-reference-format" default.footnoteReferenceFormat Scan.asString
    <*> .optional "footnote-separator" default.footnoteSeparator Scan.asString
    <*> .optional "footnotes-section-template" default.footnotesSectionTemplate Scan.asString
    <*> .optional "output-extension" default.outputExtension Scan.asString
    <*> .optional "inline-image-extensions" default.inlineImageExtensions
      (Scan.asList Scan.asString)
    <*> .optional "language" default.language Scan.asString
    <*> .optional "translations" default.wordings asWordings

def read : Scan → Decoded Options
  | .object entries closed => fields.read Scan.isFormed entries closed
  | .array items closed => fields.readPositions items closed
  | scan => .error (scan.mismatch .options)

/-- Reads options from the text of one JSON value. -/
def ofText (text : List Char) : Decoded Options := do
  let (scan, isAll) := Scan.ofText text
  let options ← read scan
  Scan.ensureClosed isAll
  return options

/-- All options as a JSON value. -/
def toJson (options : Options) : Json :=
  .object
    [("with-todo-keywords", .bool options.withTodoKeywords),
      ("with-tags", .bool options.withTags),
      ("with-priority", .bool options.withPriority),
      ("with-smart-quotes", .bool options.withSmartQuotes),
      ("with-special-strings", .bool options.withSpecialStrings),
      ("preserve-breaks", .bool options.preserveBreaks),
      ("headline-style", .string options.headlineStyle.name),
      ("default-table-class", options.defaultTableClass.elim .null .string),
      ("footnote-reference-format", .string options.footnoteReferenceFormat),
      ("footnote-separator", .string options.footnoteSeparator),
      ("footnotes-section-template", .string options.footnotesSectionTemplate),
      ("output-extension", .string options.outputExtension),
      ("inline-image-extensions", .array (options.inlineImageExtensions.map .string)),
      ("language", .string options.language),
      ("translations",
        .object (options.wordings.map fun entry => (entry.1, .string entry.2)))]

/-- The text of options as JSON. -/
def text (options : Options) : List Char :=
  options.toJson.text

end Options

end OutlineWiki
