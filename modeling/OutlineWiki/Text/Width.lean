import OutlineWiki.Text.Ranges
import OutlineWiki.Text.Width.Table

/-!
Display width of a text in columns.

A character takes no, one or two columns by itself, and some sequences take fewer or
more than the sum: a line end of two characters, a character with a selector or a skin
tone, emoji and flags that are joined into one, and a few ligatures. The width is found
from right to left, so each character is seen together with what follows it.
-/

namespace OutlineWiki.Text

/-- How a variation selector asks for a character to be shown. -/
inductive Style where
  | emoji
  | text
  deriving DecidableEq

/-- A letter, or an end of a ligature, that merges with certain letters before it. -/
inductive MergingLetter where
  | lamed
  | ya
  | vowelBeforeYa
  | consonant
  | joinedConsonant
  | tone
  | turkicI
  | subscript
  deriving DecidableEq

/-- What follows a character, as far as it bears on widths. -/
inductive Following where
  | plain
  | newline
  | skinTone
  | emoji
  /-- A run of halves of flags. -/
  | flag (isWhole : Bool)
  /-- A joiner before an emoji. -/
  | joined
  | joinedKeycap
  /-- A run of halves of flags before a joined emoji; an even run is made of whole flags. -/
  | joinedFlag (isEven : Bool)
  | vowelSign
  | doubledVowelSign
  | alef
  /-- A letter that merges with letters before it, which a joiner may tie to it. -/
  | letter (letter : MergingLetter) (isTied : Bool)
  /-- A selector before all that the selector lets through. -/
  | selector (style : Style) (next : Following)
  deriving DecidableEq

def isRegional (c : Char) : Bool :=
  0x1F1E6 ≤ c.toNat && c.toNat ≤ 0x1F1FF

def isSkinTone (c : Char) : Bool :=
  0x1F3FB ≤ c.toNat && c.toNat ≤ 0x1F3FF

def isTifinaghConsonant (c : Char) : Bool :=
  (0x2D31 ≤ c.toNat && c.toNat ≤ 0x2D65) || c.toNat == 0x2D6F

def isLisuTone (c : Char) : Bool :=
  0xA4F8 ≤ c.toNat && c.toNat ≤ 0xA4FB

/-- The letters whose joining group is alef. -/
def isAlef (c : Char) : Bool :=
  inRanges c.toNat [(0x622, 0x623), (0x625, 0x625), (0x627, 0x627), (0x671, 0x673),
    (0x675, 0x675), (0x773, 0x774), (0x870, 0x882)]

/-- The letters whose joining group is lam. -/
def isLam (c : Char) : Bool :=
  inRanges c.toNat [(0x644, 0x644), (0x6B5, 0x6B8), (0x76A, 0x76A), (0x8A6, 0x8A6),
    (0x8C7, 0x8C7)]

/-- The letters that a subscript sign of Khmer script puts below the letter before it. -/
def isKhmerSubscript (c : Char) : Bool :=
  inRanges c.toNat [(0x1780, 0x1782), (0x1784, 0x1787), (0x1789, 0x178C), (0x178E, 0x1793),
    (0x1795, 0x1798), (0x179B, 0x179D), (0x17A0, 0x17A0), (0x17A2, 0x17A2), (0x17A7, 0x17A7),
    (0x17AB, 0x17AC), (0x17AF, 0x17AF)]

def isZeroWidth (c : Char) : Bool :=
  charInRanges c zeroWidthRanges

/-- Characters that may stand between lam and alef. -/
def isJoiningTransparent (c : Char) : Bool :=
  isZeroWidth c &&
    !inRanges c.toNat [(0x605, 0x605), (0x890, 0x891), (0x8E2, 0x8E2), (0x1160, 0x11FF),
      (0x180E, 0x180E), (0x200C, 0x200D), (0x2065, 0x2069), (0x3164, 0x3164), (0xA8FA, 0xA8FA),
      (0xD7B0, 0xD7FF), (0xFF9E, 0xFFA0), (0xFFF0, 0xFFF8)]

/-- Combining marks that are ignored by default, also within a ligature. -/
def isLigatureTransparent (c : Char) : Bool :=
  inRanges c.toNat [(0x34F, 0x34F), (0x17B4, 0x17B5), (0x180B, 0x180D), (0x180F, 0x180F),
    (0xFE00, 0xFE0F), (0xE0100, 0xE01EF)]

/-- Width of a character by itself. -/
def charWidth (c : Char) : Nat :=
  if c.toNat < 0x7F then 1
  else if c.toNat = 0x17D8 then 3
  else if c.toNat = 0x17A4 then 2
  else if c.toNat = 0x2D7F then 1
  else if isZeroWidth c then 0
  else if charInRanges c wideRanges then 2
  else 1

/-- The letter that a character is to the letters before it. -/
def mergingLetter? (c : Char) : Option MergingLetter :=
  if c.toNat = 0x5DC then some .lamed
  else if isKhmerSubscript c then some .subscript
  else if c.toNat = 0x1A10 then some .ya
  else if isTifinaghConsonant c then some .consonant
  else if 0xA4FC ≤ c.toNat && c.toNat ≤ 0xA4FD then some .tone
  else if c.toNat = 0x10C03 then some .turkicI
  else none

/-- What a character begins when nothing joins it to what follows. -/
def beginning (c : Char) : Following :=
  if c.toNat = 0x16D67 then .vowelSign
  else if c.toNat = 0x16D68 then .doubledVowelSign
  else if isSkinTone c then .skinTone
  else if isRegional c then .flag false
  else if charInRanges c emojiPresentationRanges then .emoji
  else if isAlef c then .alef
  else
    match mergingLetter? c with
    | some letter => .letter letter false
    | none => .plain

/-- What a selector puts before what it lets through. -/
def Following.behind (style : Style) : Following → Following
  | alef => selector style alef
  | letter l tied => selector style (letter l tied)
  | joined => selector style (if style = .emoji then joined else plain)
  | joinedKeycap => selector style (if style = .emoji then joinedKeycap else plain)
  | _ => selector style plain

/-- Whether a joiner turns an emoji into a part of the emoji before the joiner. -/
def Following.isJoinable : Following → Bool
  | emoji | skinTone => true
  | flag isWhole => isWhole
  | joinedFlag isEven => isEven
  | _ => false

/-- Columns that a letter adds, or takes away, before a letter that it merges with. -/
def mergedWidth? (c : Char) : MergingLetter → Bool → Option (Int × Following)
  | .lamed, true => if c.toNat = 0x5D0 then some (0, .plain) else none
  | .ya, true => if c.toNat = 0x1A17 then some (0, .letter .vowelBeforeYa false) else none
  | .vowelBeforeYa, _ => if c.toNat = 0x1A15 then some (0, .plain) else none
  | .consonant, tied =>
    if c.toNat = 0x2D7F then some (1, .letter .joinedConsonant false)
    else if tied && isTifinaghConsonant c then some (0, .plain)
    else none
  | .joinedConsonant, _ => if isTifinaghConsonant c then some (-1, .plain) else none
  | .tone, _ => if isLisuTone c then some (0, .plain) else none
  | .turkicI, true => if c.toNat = 0x10C32 then some (0, .plain) else none
  | .subscript, _ => if c.toNat = 0x17D2 then some (-1, .plain) else none
  | _, _ => none

/-- Columns that a character adds, or takes away, before what it is joined to. -/
def joinedWidth? (c : Char) : Following → Option (Int × Following)
  | .letter letter tied =>
    if c.toNat = 0x200D then some (0, .letter letter true)
    else if isLigatureTransparent c then some (0, .letter letter tied)
    else mergedWidth? c letter tied
  | .alef =>
    if isLam c then some (0, .plain)
    else if isJoiningTransparent c then some (0, .alef)
    else none
  | .vowelSign =>
    if c.toNat = 0x16D63 || c.toNat = 0x16D69 then some (0, .plain)
    else if c.toNat = 0x16D67 then some (0, .doubledVowelSign)
    else if c.toNat = 0x16D68 then some (1, .vowelSign)
    else none
  | .doubledVowelSign => if c.toNat = 0x16D63 then some (0, .plain) else none
  | .joined =>
    if c.toNat = 0x20E3 then some (0, .joinedKeycap)
    else if isRegional c then some (1, .joinedFlag false)
    else if isSkinTone c then some (0, .skinTone)
    else if charInRanges c emojiPresentationRanges then some (0, .emoji)
    else none
  | next =>
    if c.toNat = 0x200D && next.isJoinable then some (0, .joined)
    else
      match next with
      | .skinTone => if charInRanges c emojiModifierBaseRanges then some (0, .emoji) else none
      | .flag _ => if isRegional c then some (1, .flag true) else none
      | .joinedFlag isEven =>
        if isRegional c then some (if isEven then 3 else -1, .joinedFlag !isEven) else none
      | _ => none

/-- Columns that a character adds before what follows but no selector, and what they begin. -/
def plainWidth (c : Char) (next : Following) : Int × Following :=
  if c = '\n' then (1, .newline)
  else if c = '\r' && next = .newline then (0, .plain)
  else if c.toNat ≤ 0xA0 then (1, .plain)
  else if c.toNat = 0xFE0F then (0, next.behind .emoji)
  else if c.toNat = 0xFE0E then (0, next.behind .text)
  else (joinedWidth? c next).getD (charWidth c, beginning c)

/-- Columns that a character adds before what follows, and what the two begin. -/
def widthBefore (c : Char) : Following → Int × Following
  | .selector .emoji next =>
    let isJoined := next = .joined || next = .joinedKeycap
    if charInRanges c emojiSelectableRanges then (if isJoined then 0 else 2, .emoji)
    else plainWidth c (if isJoined then .plain else next)
  | .selector .text next =>
    if charInRanges c textSelectableRanges then (1, .plain) else plainWidth c next
  | next => plainWidth c next

/-- Number of columns that a text takes. -/
def width (text : List Char) : Nat :=
  (text.foldr
    (fun c state =>
      let step := widthBefore c state.2
      (step.1 + state.1, step.2))
    ((0 : Int), Following.plain)).1.toNat

end OutlineWiki.Text
