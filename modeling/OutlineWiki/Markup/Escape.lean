import OutlineWiki.Options.Basic
import OutlineWiki.Text.Lines
import OutlineWiki.Text.Search

/-!
Running text as markup.

A run of text goes through four steps: straight quotes become typographic ones, active
characters are escaped, dashes and dots become entities, and line breaks become hard
breaks. The options switch all steps but the second.
-/

namespace OutlineWiki.Markup

open OutlineWiki.Text

/-- Characters after which a quote opens. -/
def opensQuote (c : Char) : Bool :=
  isBlank c || ['(', '[', '\x7b', '-', '/', '\u2014'].contains c

/-- The typographic form of a character, given what stands before it. -/
def curlQuote (previous : Option Char) (c : Char) : Char :=
  let opening := previous.all opensQuote
  if c = '"' then (if opening then '\u201c' else '\u201d')
  else if c = '\'' then (if opening then '\u2018' else '\u2019')
  else c

/-- Typographic quotes in a text that follows a given character. -/
def curlQuotesAfter (previous : Option Char) : List Char → List Char
  | [] => []
  | c :: rest => curlQuote previous c :: curlQuotesAfter (some c) rest

/-- Replaces straight quotes by typographic ones. -/
def curlQuotes (text : List Char) : List Char :=
  curlQuotesAfter none text

/-- Whether a character is active between its neighbours. -/
def isActive (previous : Option Char) (c : Char) (next : Option Char) : Bool :=
  if c = '\x60' ∨ c = '*' ∨ c = '_' ∨ c = '\\' then true
  else if c = '#' then previous == some '\n'
  else if c = '!' then next == some '['
  else false

/-- Escapes the active characters of a text that follows a given character. -/
def escapeAfter (previous : Option Char) : List Char → List Char
  | [] => []
  | c :: rest =>
    (if isActive previous c rest.head? then ['\\', c] else [c]) ++ escapeAfter (some c) rest

/-- Puts a backslash before each active character. -/
def escape (text : List Char) : List Char :=
  escapeAfter none text

/-- Replaces dashes and dots by entities, the longest first. -/
def namedDashes (text : List Char) : List Char :=
  replaceAll "...".toList "&hellip;".toList
    (replaceAll "--".toList "&ndash;".toList
      (replaceAll "---".toList "&mdash;".toList text))

/-- Joins lines by hard breaks, which replace the spaces and tabs before them. -/
def joinHard : List (List Char) → List Char
  | [] => []
  | [last] => last
  | line :: rest => dropTrailing isIndent line ++ [' ', ' ', '\n'] ++ joinHard rest

/-- Turns every line break into a hard break. -/
def hardBreaks (text : List Char) : List Char :=
  joinHard (splitOn '\n' text)

/-- The markup of a run of text. -/
def run (options : Options) (text : List Char) : List Char :=
  let quoted := if options.withSmartQuotes then curlQuotes text else text
  let escaped := escape quoted
  let special := if options.withSpecialStrings then namedDashes escaped else escaped
  if options.preserveBreaks then hardBreaks special else special

end OutlineWiki.Markup
