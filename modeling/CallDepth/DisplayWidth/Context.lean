/-
# Characters in context

The columns of a character depend on the characters after it: two letters may be drawn as one sign,
and several characters may make up one emoji. A text is therefore measured from its end, and a
`Context` keeps of the part already measured what bears on the character before it.

* `Context.ofCode` gives the columns of a code point by itself, and the context it makes.
* `Context.meet?` gives the columns that a code point adds when it forms a unit with its context.
-/
import CallDepth.DisplayWidth.Ranges

namespace CallDepth.DisplayWidth

/-- The end of a unit that two or more letters form. -/
inductive Ligature where
  /-- An Arabic alef, which a lam before it absorbs. -/
  | alef
  /-- A Hebrew lamed, which an alef joined to it absorbs. -/
  | lamed
  /-- A Khmer letter, which a sign before it puts below the line. -/
  | khmer
  /-- A Buginese ya, to which a vowel sign may be joined. -/
  | ya
  /-- A Buginese ya with a vowel sign joined to it. -/
  | vowelYa
  /-- A Tifinagh consonant. -/
  | tifinagh
  /-- A Tifinagh consonant after the sign that joins consonants. -/
  | tifinaghJoiner
  /-- The second half of a Lisu tone. -/
  | lisuTone
  /-- An Old Turkic letter, which a letter joined to it absorbs. -/
  | orkhon
deriving DecidableEq, Repr, Inhabited

/-- What follows a character, as far as it bears on the columns of that character. -/
inductive Context where
  /-- Nothing that the character could form a unit with. -/
  | plain
  /-- The end of a ligature; `isJoined` says that a joiner stands before it. -/
  | ligature (half : Ligature) (isJoined : Bool)
  /-- The Kirat Rai vowel sign e, which fuses with a vowel directly before it. -/
  | kiratE
  /-- The Kirat Rai vowel sign ai, which does the same. -/
  | kiratAi
  | emoji
  | skinTone
  /-- A number of halves of flags. -/
  | flag (halves : Nat)
  /-- An emoji with a joiner before it. -/
  | joined
  /-- A joined emoji with a keycap before the joiner. -/
  | joinedKeycap
  /-- A joined emoji with a number of halves of flags before the joiner. -/
  | joinedFlag (halves : Nat)
  /-- A joined emoji with an end tag before the joiner, and with tag letters before that. -/
  | tagLetters (count : Nat)
  /-- The same with tag digits before the end tag and its letters. -/
  | tagDigits (count : Nat)
deriving DecidableEq, Repr, Inhabited

/-- The joiner that makes one sign of two. -/
def joiner : Nat := 0x200d

def isFlagHalf (code : Nat) : Bool :=
  0x1f1e6 ≤ code && code ≤ 0x1f1ff

def isSkinTone (code : Nat) : Bool :=
  0x1f3fb ≤ code && code ≤ 0x1f3ff

def isTagLetter (code : Nat) : Bool :=
  0xe0061 ≤ code && code ≤ 0xe007a

def isTagDigit (code : Nat) : Bool :=
  0xe0030 ≤ code && code ≤ 0xe0039

def endTag : Nat := 0xe007f

/-- The flag that tags turn into the flag of a region. -/
def blackFlag : Nat := 0x1f3f4

def keycap : Nat := 0x20e3

def isAlef (code : Nat) : Bool :=
  inRanges [(0x622, 0x623), (0x625, 0x625), (0x627, 0x627), (0x671, 0x673), (0x675, 0x675),
    (0x773, 0x774), (0x870, 0x882)] code

def isLam (code : Nat) : Bool :=
  inRanges [(0x644, 0x644), (0x6b5, 0x6b8), (0x76a, 0x76a), (0x8a6, 0x8a6), (0x8c7, 0x8c7)] code

/-- The Khmer letters that have a form below the line. -/
def isKhmerSubjoined (code : Nat) : Bool :=
  inRanges [(0x1780, 0x1782), (0x1784, 0x1787), (0x1789, 0x178c), (0x178e, 0x1793),
    (0x1795, 0x1798), (0x179b, 0x179d), (0x17a0, 0x17a0), (0x17a2, 0x17a2), (0x17a7, 0x17a7),
    (0x17ab, 0x17ac), (0x17af, 0x17af)] code

def isTifinagh (code : Nat) : Bool :=
  inRanges [(0x2d31, 0x2d65), (0x2d6f, 0x2d6f)] code

/-- Invisible marks that may stand inside a ligature: grapheme joiners and variation selectors. -/
def isLigatureMark (code : Nat) : Bool :=
  inRanges [(0x34f, 0x34f), (0x17b4, 0x17b5), (0x180b, 0x180d), (0x180f, 0x180f), (0xfe00, 0xfe0f),
    (0xe0100, 0xe01ef)] code

namespace Context

/-- Code points that stand alone in their width: the filler that holds the place of a Hangul
initial, two Khmer characters that stand for several others, and a Tifinagh sign that is visible
unless it joins. -/
def singularWidths : List (Nat × Int) :=
  [(0x115f, 2), (0x17a4, 2), (0x17d8, 3), (0x2d7f, 1)]

/-- The ligatures that a code point may end. -/
def ligature? (code : Nat) : Option Ligature :=
  if code = 0x5dc then some .lamed
  else if isAlef code then some .alef
  else if isKhmerSubjoined code then some .khmer
  else if code = 0x1a10 then some .ya
  else if isTifinagh code then some .tifinagh
  else if code = 0xa4fc || code = 0xa4fd then some .lisuTone
  else if code = 0x10c03 then some .orkhon
  else none

/-- The columns of a code point by itself, and the context it makes for the one before. -/
def ofCode (code : Nat) : Int × Context :=
  match singularWidths.lookup code, ligature? code with
  | some width, _ => (width, plain)
  | none, some half => (1, ligature half false)
  | none, none =>
      if code = 0x16d67 then (1, kiratE)
      else if code = 0x16d68 then (1, kiratAi)
      else if isFlagHalf code then (1, flag 1)
      else if isSkinTone code then (2, skinTone)
      else if inRanges emojiRanges code then (2, emoji)
      else if inRanges zeroWidthRanges code then (0, plain)
      else if inRanges wideRanges code then (2, plain)
      else (1, plain)

/-- Characters without a column that may stand between a lam and an alef. -/
def isBetweenLamAndAlef (code : Nat) : Bool :=
  (ofCode code).1 = 0 && !inRanges ligatureBreakRanges code

/-- The columns that a code point adds when it forms a unit with the end of a ligature. A code point
that takes back a column was drawn as part of the character after it. -/
def meetLigature? (half : Ligature) (isJoined : Bool) (code : Nat) : Option (Int × Context) :=
  if half = .alef then
    if isLam code then some (0, plain)
    else if isBetweenLamAndAlef code then some (0, ligature .alef false)
    else none
  else if code = joiner then some (0, ligature half true)
  else if isLigatureMark code then some (0, ligature half isJoined)
  else match half with
    | .alef => none
    | .lamed => if isJoined && code = 0x5d0 then some (0, plain) else none
    | .khmer => if code = 0x17d2 then some (-1, plain) else none
    | .ya => if isJoined && code = 0x1a17 then some (0, ligature .vowelYa false) else none
    | .vowelYa => if code = 0x1a15 then some (0, plain) else none
    | .tifinagh =>
        if code = 0x2d7f then some (1, ligature .tifinaghJoiner false)
        else if isJoined && isTifinagh code then some (0, plain)
        else none
    | .tifinaghJoiner => if isTifinagh code then some (-1, plain) else none
    | .lisuTone => if 0xa4f8 ≤ code && code ≤ 0xa4fb then some (0, plain) else none
    | .orkhon => if isJoined && code = 0x10c32 then some (0, plain) else none

/-- The columns that a code point adds when an emoji is joined to it. -/
def meetJoined? (code : Nat) : Option (Int × Context) :=
  if code = keycap then some (0, joinedKeycap)
  else if code = endTag then some (0, tagLetters 0)
  else if isFlagHalf code then some (1, joinedFlag 1)
  else if isSkinTone code then some (0, skinTone)
  else if inRanges emojiRanges code then some (0, emoji)
  else none

/-- The columns that a code point adds when it forms a unit with what follows. -/
def meet? (context : Context) (code : Nat) : Option (Int × Context) :=
  match context with
  | plain => none
  | ligature half isJoined => meetLigature? half isJoined code
  | kiratE =>
      if code = 0x16d63 || code = 0x16d69 then some (0, plain)
      else if code = 0x16d67 then some (0, kiratAi)
      else if code = 0x16d68 then some (1, kiratE)
      else none
  | kiratAi => if code = 0x16d63 then some (0, plain) else none
  | emoji => if code = joiner then some (0, joined) else none
  | skinTone =>
      if code = joiner then some (0, joined)
      else if inRanges skinToneBaseRanges code then some (0, emoji)
      else none
  | flag halves =>
      if 2 ≤ halves && code = joiner then some (0, joined)
      else if isFlagHalf code then some (1, flag (halves + 1))
      else none
  | joined => meetJoined? code
  | joinedKeycap => none
  | joinedFlag halves =>
      if 2 ≤ halves && code = joiner then some (0, joined)
      else if isFlagHalf code then
        some (if halves % 2 = 0 then 3 else -1, joinedFlag (halves + 1))
      else none
  | tagLetters count =>
      if count < 6 && isTagLetter code then some (0, tagLetters (count + 1))
      else if count < 5 && isTagDigit code then some (0, tagDigits 1)
      else if 3 ≤ count && code = blackFlag then some (0, emoji)
      else none
  | tagDigits count =>
      if count < 3 && isTagDigit code then some (0, tagDigits (count + 1))
      else if count = 3 && code = blackFlag then some (0, emoji)
      else none

/-- The context is the end of a ligature, which selectors do not break. -/
def isLigature : Context → Bool
  | ligature .. => true
  | _ => false

/-- An emoji is joined to whatever character comes next, perhaps with a keycap. -/
def isJoined : Context → Bool
  | joined => true
  | joinedKeycap => true
  | _ => false

end Context

end CallDepth.DisplayWidth
