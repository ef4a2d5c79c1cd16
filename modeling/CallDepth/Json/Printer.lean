/-
# Writing JSON

Two layouts of the same text: `compact` without blanks and `pretty` with one item or member a line,
two spaces an indentation level, and a blank after each colon. An empty list or object is written
without a line break in both.

A string escapes the quote, the backslash and the control characters below U+0020, the latter with
a one-letter escape where there is one and four hexadecimal digits otherwise.
-/
import CallDepth.Json.Double

namespace CallDepth.Json

def hexDigit (value : Nat) : Char :=
  if value < 10 then Char.ofNat ('0'.toNat + value) else Char.ofNat ('a'.toNat + (value - 10))

/-- A character as it stands inside a string literal. -/
def escape (c : Char) : List Char :=
  if c = '"' then ['\\', '"']
  else if c = '\\' then ['\\', '\\']
  else if c = '\x08' then ['\\', 'b']
  else if c = '\x0c' then ['\\', 'f']
  else if c = '\n' then ['\\', 'n']
  else if c = '\r' then ['\\', 'r']
  else if c = '\t' then ['\\', 't']
  else if c.toNat < 0x20 then
    ['\\', 'u', '0', '0', hexDigit (c.toNat / 16), hexDigit (c.toNat % 16)]
  else [c]

/-- A string literal, followed by `rest`. -/
def quote (content : String) (rest : List Char) : List Char :=
  '"' :: content.toList.flatMap escape ++ '"' :: rest

def Number.chars : Number → List Char
  | .natural value => Nat.toDigits 10 value
  | .negative value => '-' :: Nat.toDigits 10 value
  | .decimal isNegative significand exponent => decimalText isNegative significand exponent

/-- The literal of a scalar, followed by `rest`. -/
def scalarChars (value : Json) (rest : List Char) : List Char :=
  match value with
  | .bool true => 't' :: 'r' :: 'u' :: 'e' :: rest
  | .bool false => 'f' :: 'a' :: 'l' :: 's' :: 'e' :: rest
  | .number value => value.chars ++ rest
  | .text value => quote value rest
  | _ => 'n' :: 'u' :: 'l' :: 'l' :: rest

/-- A layout of lists and objects: what stands before an item at a depth, and after a colon. -/
structure Layout where
  lineBreak : Nat → List Char
  afterColon : List Char

namespace Layout

/-- No blanks at all. -/
def compact : Layout :=
  ⟨fun _ => [], []⟩

/-- One item a line, indented by two spaces a level. -/
def pretty : Layout :=
  ⟨fun depth => '\n' :: List.replicate (2 * depth) ' ', [' ']⟩

/-- A key and its colon, followed by `rest`. -/
def keyChars (layout : Layout) (key : String) (rest : List Char) : List Char :=
  quote key (':' :: layout.afterColon ++ rest)

mutual

/-- A value at a depth, followed by `rest`. -/
def chars (layout : Layout) (depth : Nat) : Json → List Char → List Char
  | .list [], rest => '[' :: ']' :: rest
  | .list (item :: items), rest =>
      '[' :: layout.lineBreak (depth + 1) ++ layout.chars (depth + 1) item
        (layout.itemsChars (depth + 1) items (layout.lineBreak depth ++ ']' :: rest))
  | .object [], rest => '\x7b' :: '\x7d' :: rest
  | .object ((key, value) :: members), rest =>
      '\x7b' :: layout.lineBreak (depth + 1) ++ layout.keyChars key
        (layout.chars (depth + 1) value
          (layout.membersChars (depth + 1) members (layout.lineBreak depth ++ '\x7d' :: rest)))
  | value, rest => scalarChars value rest

/-- The items after the first, followed by `rest`. -/
def itemsChars (layout : Layout) (depth : Nat) : List Json → List Char → List Char
  | [], rest => rest
  | item :: items, rest =>
      ',' :: layout.lineBreak depth ++
        layout.chars depth item (layout.itemsChars depth items rest)

def membersChars (layout : Layout) (depth : Nat) :
    List (String × Json) → List Char → List Char
  | [], rest => rest
  | (key, value) :: members, rest =>
      ',' :: layout.lineBreak depth ++ layout.keyChars key
        (layout.chars depth value (layout.membersChars depth members rest))

end

end Layout

def compact (value : Json) : String :=
  String.ofList (Layout.compact.chars 0 value [])

/-- The text of a value, one item or member a line. -/
def pretty (value : Json) : String :=
  String.ofList (Layout.pretty.chars 0 value [])

end CallDepth.Json
