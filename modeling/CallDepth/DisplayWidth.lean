/-
# Display width

The number of terminal columns a text takes. Most characters take one column. Wide and fullwidth
East Asian characters and emoji take two, and characters that only modify another take none. Units
of several characters, such as ligatures and joined emoji, take the columns of the sign that is
drawn for them.

A selector after a character chooses how that character is drawn; `Following` keeps the selectors
together with the context.
-/
import CallDepth.DisplayWidth.Context

namespace CallDepth

namespace DisplayWidth

/-- How a selector draws the character before it. -/
inductive Selector where
  /-- As an emoji of two columns. -/
  | emoji
  /-- As text of one column. -/
  | text
  /-- Quotation marks in a field of two columns. -/
  | wideQuote
deriving DecidableEq, Repr, Inhabited

def Selector.ofCode? (code : Nat) : Option Selector :=
  if code = 0xfe0f then some .emoji
  else if code = 0xfe0e then some .text
  else if code = 0xfe01 then some .wideQuote
  else none

structure Selectors where
  emoji : Bool := false
  text : Bool := false
  wideQuote : Bool := false
deriving DecidableEq, Repr, Inhabited

def Selectors.insert (selectors : Selectors) : Selector → Selectors
  | .emoji => { selectors with emoji := true }
  | .text => { selectors with text := true }
  | .wideQuote => { selectors with wideQuote := true }

/-- What follows a character: the context, and the selectors directly after the character. -/
structure Following where
  context : Context := .plain
  selectors : Selectors := {}
deriving DecidableEq, Repr, Inhabited

namespace Following

/-- Up to the no-break space every character takes one column by itself. -/
def lastSimple : Nat := 0xa0

/-- Emoji of two columns that have a text form of one. The squared ideographs are wide in either
form. -/
def hasTextForm (code : Nat) : Bool :=
  inRanges emojiRanges code && inRanges selectableRanges code &&
    !(0x1f200 ≤ code && code ≤ 0x1f2ff)

def hasWideForm (code : Nat) : Bool :=
  inRanges [(0x2018, 0x2019), (0x201c, 0x201d)] code

/-- The columns of a character that takes a form that a selector asks for. -/
def select? (following : Following) (code : Nat) : Option (Int × Following) :=
  if following.selectors.emoji && inRanges selectableRanges code then
    some (if following.context.isJoined then 0 else 2, { context := .emoji })
  else if following.selectors.text && hasTextForm code then some (1, {})
  else if following.selectors.wideQuote && hasWideForm code then some (2, {})
  else none

/-- What follows once the character before has no emoji form. A selector that asks for one keeps
emoji apart, and leaves a ligature whole. -/
def dropEmoji (following : Following) : Following :=
  if following.selectors.emoji && !following.context.isLigature then {}
  else { following with selectors := { following.selectors with emoji := false } }

/-- What follows a character with one more selector after it. A ligature keeps all its selectors;
anything else has only the first, and emoji stay joined only across the one for emoji. -/
def withSelector (following : Following) (selector : Selector) : Following :=
  if following.context.isLigature then
    { following with selectors := following.selectors.insert selector }
  else
    { context := if selector = .emoji && following.context.isJoined then following.context
        else .plain
      selectors := Selectors.insert {} selector }

/-- The columns that a code point adds before what follows, and what follows the one before. -/
def add (code : Nat) (following : Following) : Int × Following :=
  match following.select? code with
  | some added => added
  | none =>
      if code ≤ lastSimple then (1, {})
      else
        let following := following.dropEmoji
        match Selector.ofCode? code with
        | some selector => (0, following.withSelector selector)
        | none =>
            let (width, next) := (following.context.meet? code).getD (Context.ofCode code)
            (width, { context := next })

/-- The columns of characters, and what follows a character before them. -/
def ofChars (chars : List Char) : Int × Following :=
  chars.foldr (fun c (width, following) =>
    let (more, next) := add c.toNat following
    (more + width, next)) (0, {})

end Following

end DisplayWidth

def displayWidth (text : String) : Nat :=
  (DisplayWidth.Following.ofChars text.toList).1.toNat

end CallDepth
