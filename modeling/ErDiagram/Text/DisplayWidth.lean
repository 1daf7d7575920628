import ErDiagram.Text.Combining
import ErDiagram.Text.DisplayWidth.Classes

/-! How many columns a text takes on a fixed-pitch screen.

Most characters have a width of their own, but some join the ones after them: emoji sequences, flags
and the ligatures of several scripts. So a text is read from its end, and what follows a character
is kept as far as it can change that character's width. -/

namespace ErDiagram.Text.DisplayWidth

/-- What has just been read to the right of a character, as far as it matters. -/
inductive Following where
  /-- Nothing that joins. -/
  | plain
  | lineFeed
  /-- A skin tone. -/
  | modifier
  /-- One flag letter. -/
  | flagLetter
  /-- Flag letters that have a width already. -/
  | flagLetters
  /-- An emoji. -/
  | emoji
  /-- A joiner and an emoji after it. -/
  | joinedEmoji
  /-- The frame of a key before a joiner and an emoji. -/
  | joinedKey
  /-- One flag letter before a joiner and an emoji. -/
  | joinedFlagLetter
  /-- Two, four, … flag letters before a joiner and an emoji. -/
  | joinedFlagPairs
  /-- Three, five, … flag letters before a joiner and an emoji. -/
  | joinedFlagRemainder
  /-- The last letters of a tagged flag before a joiner and an emoji. -/
  | taggedLetters (count : Nat)
  /-- The last digits of a tagged flag before a joiner and an emoji. -/
  | taggedDigits (count : Nat)
  | kiratVowelE
  | kiratVowelAi
  | alef
  /-- Hebrew lamed, with or without a joiner before it. -/
  | lamed (joined : Bool)
  /-- Buginese ya, with or without a joiner before it. -/
  | bugineseYa (joined : Bool)
  /-- A Buginese vowel sign that has joined ya. -/
  | bugineseVowel
  /-- A Tifinagh consonant, with or without a joiner before it. -/
  | tifinagh (joined : Bool)
  /-- The Tifinagh consonant joiner before a consonant. -/
  | tifinaghJoiner
  /-- A Lisu tone mark that can be the second of two. -/
  | lisuTone
  /-- The Old Turkic letter i, with or without a joiner before it. -/
  | orkhonI (joined : Bool)
  /-- A Khmer letter that has a subscript form. -/
  | khmerLetter
deriving DecidableEq, Repr

/-- A selector of the look of the character before it. -/
inductive Selector where
  | asText
  | asEmoji
  /-- The wide form of a quotation mark. -/
  | fullWidth
deriving DecidableEq, Repr

/-- The selector that a character is. -/
def Selector.ofChar? (c : Char) : Option Selector :=
  if c = '\ufe0e' then some .asText
  else if c = '\ufe0f' then some .asEmoji
  else if c = '\ufe01' then some .fullWidth
  else none

namespace Following

/-- Whether a ligature forms across marks that are not drawn, and across joiners. -/
def transparent : Following → Bool
  | lamed _ | bugineseYa _ | bugineseVowel | tifinagh _ | tifinaghJoiner | lisuTone | orkhonI _
  | khmerLetter => true
  | _ => false

/-- The same letter with a joiner before it. -/
def join : Following → Following
  | lamed _ => lamed true
  | bugineseYa _ => bugineseYa true
  | tifinagh _ => tifinagh true
  | orkhonI _ => orkhonI true
  | other => other

/-- Whether a selector before it leaves it what it is. -/
def outlastsSelector (f : Following) : Bool := f.transparent || f == alef

end Following

/-- What follows a character: what it may join, and the selectors before that. -/
structure Context where
  following : Following
  asText : Bool
  asEmoji : Bool
  fullWidth : Bool
deriving DecidableEq, Repr

namespace Context

/-- No selector follows. -/
def of (f : Following) : Context := ⟨f, false, false, false⟩

/-- Nothing follows that matters. -/
def start : Context := of .plain

/-- What is left if what follows the selectors does not outlast them. -/
def lasting (k : Context) : Context :=
  if k.following.outlastsSelector then k else start

/-- A selector before what follows. The emoji selector stays beside a joined emoji too, which it can
be part of. -/
def select (k : Context) : Selector → Context
  | .asText => { k.lasting with asText := true }
  | .fullWidth => { k.lasting with fullWidth := true }
  | .asEmoji =>
    if k.following == .joinedEmoji || k.following == .joinedKey then { k with asEmoji := true }
    else { k.lasting with asEmoji := true }

/-- The emoji selector before a character that has no emoji form counts no more. -/
def dropEmoji (k : Context) : Context :=
  if k.asEmoji then { k.lasting with asEmoji := false } else k

end Context

/-- A letter for the two-letter codes of flags. -/
def isFlagLetter (c : Char) : Bool :=
  0x1f1e6 ≤ c.toNat && c.toNat ≤ 0x1f1ff

/-- A skin tone. -/
def isModifier (c : Char) : Bool :=
  0x1f3fb ≤ c.toNat && c.toNat ≤ 0x1f3ff

/-- A Tifinagh consonant. -/
def isTifinagh (c : Char) : Bool :=
  (0x2d31 ≤ c.toNat && c.toNat ≤ 0x2d65) || c.toNat == 0x2d6f

/-- A Khmer sign of an obsolete word, drawn three columns wide. -/
def beyyal : Char := '\u17d8'

/-- The sign that joins two Tifinagh consonants. Outside of such a pair it is drawn. -/
def tifinaghSign : Char := '\u2d7f'

/-- A character without a column of its own. The filler for a missing initial jamo is no such
character although it draws nothing. -/
def isColumnless (c : Char) : Bool :=
  c.toNat != 0x115f && c != tifinaghSign &&
    (isCombining c || ignorable.contains c || overlaid.contains c)

/-- The width of a character that joins nothing. -/
def charWidth (c : Char) : Nat :=
  if c = beyyal then 3
  else if isColumnless c then 0
  else if c.toNat = 0x17a4 || wide.contains c then 2
  else 1

/-- What a character is to the one before it. -/
def following (c : Char) : Following :=
  if isModifier c then .modifier
  else if isFlagLetter c then .flagLetter
  else if emojiPresentation.contains c then .emoji
  else if alef.contains c then .alef
  else if c = '\u05dc' then .lamed false
  else if c = '\u1a10' then .bugineseYa false
  else if isTifinagh c then .tifinagh false
  else if c = '\ua4fc' || c = '\ua4fd' then .lisuTone
  else if c.toNat = 0x10c03 then .orkhonI false
  else if khmerSubscript.contains c then .khmerLetter
  else if c.toNat = 0x16d67 then .kiratVowelE
  else if c.toNat = 0x16d68 then .kiratVowelAi
  else .plain

/-- What a character adds that joins nothing, and what it is to the one before it. -/
def alone (c : Char) : Int × Context :=
  (charWidth c, .of (following c))

/-- A character that has both a text and an emoji form, and is an emoji without a selector. The
enclosed ideographs of that kind stay wide as text. -/
def isNarrowAsText (c : Char) : Bool :=
  variationBase.contains c && emojiPresentation.contains c &&
    !(0x1f200 ≤ c.toNat && c.toNat ≤ 0x1f2ff)

/-- A curled quotation mark, which has a wide form. -/
def isCurledQuote (c : Char) : Bool :=
  c ∈ ['\u2018', '\u2019', '\u201c', '\u201d']

/-- A tag for a small letter. -/
def isTagLetter (c : Char) : Bool :=
  0xe0061 ≤ c.toNat && c.toNat ≤ 0xe007a

/-- A tag for a digit. -/
def isTagDigit (c : Char) : Bool :=
  0xe0030 ≤ c.toNat && c.toNat ≤ 0xe0039

/-- What a character adds that joins what follows it, if it does. A negative width takes back what
the following characters have added. -/
def joining (f : Following) (c : Char) : Option (Int × Following) :=
  let n := c.toNat
  match f with
  | .alef =>
    if lam.contains c then some (0, .plain)
    else if isColumnless c && !arabicOpaque.contains c then some (0, .alef)
    else none
  | .lamed true => if n = 0x5d0 then some (0, .plain) else none
  | .khmerLetter => if n = 0x17d2 then some (-1, .plain) else none
  | .bugineseYa true => if n = 0x1a17 then some (0, .bugineseVowel) else none
  | .bugineseVowel => if n = 0x1a15 then some (0, .plain) else none
  | .tifinagh joined =>
    if c = tifinaghSign then some (1, .tifinaghJoiner)
    else if joined && isTifinagh c then some (0, .plain)
    else none
  | .tifinaghJoiner => if isTifinagh c then some (-1, .plain) else none
  | .lisuTone => if 0xa4f8 ≤ n ∧ n ≤ 0xa4fb then some (0, .plain) else none
  | .orkhonI true => if n = 0x10c32 then some (0, .plain) else none
  | .modifier =>
    if modifierBase.contains c then some (0, .emoji)
    else if n = 0x200d then some (0, .joinedEmoji)
    else none
  | .flagLetter => if isFlagLetter c then some (1, .flagLetters) else none
  | .flagLetters =>
    if isFlagLetter c then some (1, .flagLetters)
    else if n = 0x200d then some (0, .joinedEmoji)
    else none
  | .emoji => if n = 0x200d then some (0, .joinedEmoji) else none
  | .joinedEmoji =>
    if n = 0x20e3 then some (0, .joinedKey)
    else if isFlagLetter c then some (1, .joinedFlagLetter)
    else if isModifier c then some (0, .modifier)
    else if n = 0xe007f then some (0, .taggedLetters 0)
    else if emojiPresentation.contains c then some (0, .emoji)
    else none
  | .joinedFlagLetter => if isFlagLetter c then some (-1, .joinedFlagPairs) else none
  | .joinedFlagRemainder =>
    if isFlagLetter c then some (-1, .joinedFlagPairs)
    else if n = 0x200d then some (0, .joinedEmoji)
    else none
  | .joinedFlagPairs =>
    if isFlagLetter c then some (3, .joinedFlagRemainder)
    else if n = 0x200d then some (0, .joinedEmoji)
    else none
  | .taggedLetters count =>
    if isTagLetter c && count < 6 then some (0, .taggedLetters (count + 1))
    else if isTagDigit c && count < 5 then some (0, .taggedDigits 1)
    else if 3 ≤ count && n = 0x1f3f4 then some (0, .emoji)
    else none
  | .taggedDigits count =>
    if isTagDigit c && count < 3 then some (0, .taggedDigits (count + 1))
    else if count = 3 && n = 0x1f3f4 then some (0, .emoji)
    else none
  | .kiratVowelE =>
    if n = 0x16d63 then some (0, .plain)
    else if n = 0x16d67 then some (0, .kiratVowelAi)
    else if n = 0x16d68 then some (1, .kiratVowelE)
    else if n = 0x16d69 then some (0, .plain)
    else none
  | .kiratVowelAi => if n = 0x16d63 then some (0, .plain) else none
  | _ => none

/-- A key or digit below the range of letters: it has one column, and the two halves of a line
break have one together. -/
def basic (c : Char) (f : Following) : Int × Context :=
  if c = '\n' then (1, .of .lineFeed)
  else if c = '\r' && f == .lineFeed then (0, .start)
  else (1, .start)

/-- What a character adds before what follows it, where no selector has chosen its form. -/
def step (c : Char) (f : Following) : Int × Context :=
  if f.transparent && c = '\u200d' then (0, .of f.join)
  else if f.transparent && ligatureTransparent.contains c then (0, .of f)
  else
    match joining f c with
    | some (width, after) => (width, .of after)
    | none => alone c

/-- What a character adds before what follows it, and what it is to the one before it. -/
def selectedStep (c : Char) (next : Context) : Int × Context :=
  if next.asEmoji && variationBase.contains c then
    (if next.following = .joinedEmoji || next.following = .joinedKey then 0 else 2, .of .emoji)
  else
    let next := next.dropEmoji
    if c.toNat ≤ 0xa0 then basic c next.following
    else
      match Selector.ofChar? c with
      | some selector => (0, next.select selector)
      | none =>
        if next.asText && isNarrowAsText c then (1, .start)
        else if next.fullWidth && isCurledQuote c then (2, .start)
        else step c next.following

end DisplayWidth

/-- The columns that a text takes on a fixed-pitch screen. A control character takes one. -/
def displayWidth (s : String) : Nat :=
  (s.toList.foldr
    (fun c (total, next) =>
      let (width, context) := DisplayWidth.selectedStep c next
      (total + width, context))
    ((0 : Int), DisplayWidth.Context.start)).1.toNat

end ErDiagram.Text
