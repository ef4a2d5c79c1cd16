/-
# JSON tokens

`tokens?` cuts a text into punctuation, strings and scalars. The scanner reads one character at
a time (`Scan.step`), so it needs no look-ahead and stops with the text.

* Outside strings, blanks separate, and a run of other characters is one word: a name (`null`,
  `true`, `false`) or a number.
* Inside a string, the scanner collects code points. An escape of four hexadecimal digits may give
  a surrogate; `decodeUnits?` joins a high and a low surrogate that follow each other and finds no
  text when one stands alone.
-/
import CallDepth.Json.Numeral

namespace CallDepth.Json

/-- A token of a JSON text. -/
inductive Token where
  | listOpen
  | listClose
  | objectOpen
  | objectClose
  | comma
  | colon
  /-- A string; `none` when its escapes denote no text. -/
  | string (content : Option String)
  /-- A number, a truth value or null. -/
  | scalar (value : Json)

def isBlank (c : Char) : Bool :=
  c = ' ' || c = '\t' || c = '\n' || c = '\r'

def punctuation? (c : Char) : Option Token :=
  if c = '[' then some .listOpen
  else if c = ']' then some .listClose
  else if c = '\x7b' then some .objectOpen
  else if c = '\x7d' then some .objectClose
  else if c = ',' then some .comma
  else if c = ':' then some .colon
  else none

def word? (word : List Char) : Option Json :=
  if word = ['n', 'u', 'l', 'l'] then some .null
  else if word = ['t', 'r', 'u', 'e'] then some (.bool true)
  else if word = ['f', 'a', 'l', 's', 'e'] then some (.bool false)
  else (Numeral.ofChars? word).map fun numeral =>
    match numeral.number? with
    | some denoted => .number denoted
    | none => .unreadable

def hexValue? (c : Char) : Option Nat :=
  if isDigit c then some (digitValue c)
  else if 'a' ≤ c && c ≤ 'f' then some (c.toNat - 'a'.toNat + 10)
  else if 'A' ≤ c && c ≤ 'F' then some (c.toNat - 'A'.toNat + 10)
  else none

/-- The character a one-letter escape denotes. -/
def escaped? (c : Char) : Option Char :=
  if c = '"' || c = '\\' || c = '/' then some c
  else if c = 'b' then some '\x08'
  else if c = 'f' then some '\x0c'
  else if c = 'n' then some '\n'
  else if c = 'r' then some '\r'
  else if c = 't' then some '\t'
  else none

/-- A surrogate that opens a pair. -/
def isHighSurrogate (unit : Nat) : Bool :=
  0xD800 ≤ unit && unit ≤ 0xDBFF

def isLowSurrogate (unit : Nat) : Bool :=
  0xDC00 ≤ unit && unit ≤ 0xDFFF

/-- The code point of a surrogate pair. -/
def pairValue (high low : Nat) : Nat :=
  0x10000 + (high - 0xD800) * 0x400 + (low - 0xDC00)

/-- The characters of code points in which surrogates come in pairs; `none` when one stands
alone. -/
def decodeUnits? : List Nat → Option (List Char)
  | [] => some []
  | [unit] =>
      if isHighSurrogate unit || isLowSurrogate unit then none else some [Char.ofNat unit]
  | unit :: next :: rest =>
      if isHighSurrogate unit then
        if isLowSurrogate next then
          (decodeUnits? rest).map (Char.ofNat (pairValue unit next) :: ·)
        else none
      else if isLowSurrogate unit then none
      else (decodeUnits? (next :: rest)).map (Char.ofNat unit :: ·)

/-- The content of a string, given as its code points. -/
def content? (units : List Nat) : Option String :=
  (decodeUnits? units).map String.ofList

/-- Where the scanner stands. What a literal has so far is kept newest first. -/
inductive Scan where
  /-- Outside any literal. -/
  | outside
  /-- Inside a word. -/
  | word (read : List Char)
  /-- Inside a string. -/
  | string (read : List Nat)
  /-- Inside a string, after a backslash. -/
  | escape (read : List Nat)
  /-- Inside a string, with `left` digits of a hexadecimal escape to come. -/
  | hex (read : List Nat) (left : Nat) (value : Nat)

namespace Scan

/-- Read a character outside any literal. -/
def start (c : Char) : Option (List Token × Scan) :=
  if isBlank c then some ([], outside)
  else if c = '"' then some ([], string [])
  else match punctuation? c with
    | some token => some ([token], outside)
    | none => some ([], word [c])

def endsWord (c : Char) : Bool :=
  isBlank c || c = '"' || (punctuation? c).isSome

/-- Read one character: the tokens it completes and where the scanner stands then. -/
def step : Scan → Char → Option (List Token × Scan)
  | outside, c => start c
  | word read, c =>
      if endsWord c then
        match word? read.reverse, start c with
        | some value, some (tokens, scan) => some (.scalar value :: tokens, scan)
        | _, _ => none
      else some ([], word (c :: read))
  | string read, c =>
      if c = '"' then some ([.string (content? read.reverse)], outside)
      else if c = '\\' then some ([], escape read)
      else if c.toNat < 0x20 then none
      else some ([], string (c.toNat :: read))
  | escape read, c =>
      if c = 'u' then some ([], hex read 4 0)
      else (escaped? c).map fun char => ([], string (char.toNat :: read))
  | hex read left value, c =>
      (hexValue? c).map fun digit =>
        let next := 16 * value + digit
        if left ≤ 1 then ([], string (next :: read)) else ([], hex read (left - 1) next)

/-- The tokens that the end of the text completes. -/
def finish : Scan → Option (List Token)
  | outside => some []
  | word read => (word? read.reverse).map fun value => [.scalar value]
  | _ => none

/-- Scan a text; the tokens found so far are kept newest first. -/
def run (scan : Scan) (found : List Token) : List Char → Option (List Token)
  | [] => scan.finish.map fun last => (last.reverse ++ found).reverse
  | c :: rest =>
      match scan.step c with
      | none => none
      | some (tokens, next) => next.run (tokens.reverse ++ found) rest

end Scan

def tokens? (text : List Char) : Option (List Token) :=
  Scan.outside.run [] text

end CallDepth.Json
