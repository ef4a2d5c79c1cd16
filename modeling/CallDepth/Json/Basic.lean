/-
# JSON values

A JSON text is read as a tree of values. Objects are lists of members in the order of the text,
since the order of members carries meaning for everything that is built on them.

* `Json` keeps the members as written, repeated keys included; `Json.settle` applies the rule for
  repeated keys: the last value wins and stands where the key stood first.
* `Json.unreadable` stands for a literal that follows the grammar and denotes no value: a string
  with an unpaired surrogate escape or a number beyond the range of a double. Some readers skip such
  literals, others refuse them (`Json.isDocument`).
-/
import CallDepth.Assoc

namespace CallDepth

namespace Json

/-- A number as a reader keeps it: an integer of one machine word, or a decimal. -/
inductive Number where
  /-- A non-negative integer below `2 ^ 64`. -/
  | natural (value : Nat)
  /-- The integer `-value`, where `1 ≤ value ≤ 2 ^ 63`. -/
  | negative (value : Nat)
  /-- The decimal `significand * 10 ^ exponent`, or its negation. -/
  | decimal (isNegative : Bool) (significand : Nat) (exponent : Int)
deriving DecidableEq, Repr

end Json

/-- A JSON value whose objects list their members as written. -/
inductive Json where
  | null
  | bool (value : Bool)
  | number (value : Json.Number)
  | text (value : String)
  | list (items : List Json)
  | object (members : List (String × Json))
  /-- A literal that follows the grammar and denotes no value. -/
  | unreadable
deriving Inhabited, Repr

namespace Json

/-- The members of an object; other values have none. -/
def members : Json → List (String × Json)
  | .object members => members
  | _ => []

def get? (value : Json) (key : String) : Option Json :=
  value.members.lookup key

def text? : Json → Option String
  | .text value => some value
  | _ => none

/-- The items of a list; other values have none. -/
def items : Json → List Json
  | .list items => items
  | _ => []

def bool? : Json → Option Bool
  | .bool value => some value
  | _ => none

def natural? : Json → Option Nat
  | .number (.natural value) => some value
  | _ => none

def ofNat (value : Nat) : Json :=
  .number (.natural value)

mutual

/-- Every object of the value with one member per key: the last value of a repeated key, where the
key stood first. -/
def settle : Json → Json
  | .list items => .list (settleItems items)
  | .object members => .object (settleMembers [] members)
  | value => value

def settleItems : List Json → List Json
  | [] => []
  | item :: rest => item.settle :: settleItems rest

/-- Settle each member and put it after the members already settled. -/
def settleMembers (settled : List (String × Json)) : List (String × Json) → List (String × Json)
  | [] => settled
  | (key, value) :: rest => settleMembers (Assoc.put settled key value.settle) rest

end

mutual

/-- The number of lists and objects around the innermost value. -/
def nesting : Json → Nat
  | .list items => 1 + nestingItems items
  | .object members => 1 + nestingMembers members
  | _ => 0

def nestingItems : List Json → Nat
  | [] => 0
  | item :: rest => max item.nesting (nestingItems rest)

def nestingMembers : List (String × Json) → Nat
  | [] => 0
  | (_, value) :: rest => max value.nesting (nestingMembers rest)

end

mutual

/-- Every literal of the value denotes something. -/
def isReadable : Json → Bool
  | .unreadable => false
  | .list items => isReadableItems items
  | .object members => isReadableMembers members
  | _ => true

def isReadableItems : List Json → Bool
  | [] => true
  | item :: rest => item.isReadable && isReadableItems rest

def isReadableMembers : List (String × Json) → Bool
  | [] => true
  | (_, value) :: rest => value.isReadable && isReadableMembers rest

end

/-- Documents nest at most this many lists and objects. -/
def nestingLimit : Nat := 127

/-- A value that may stand as a document: readable throughout and not nested too deeply. -/
def isDocument (value : Json) : Bool :=
  value.isReadable && value.nesting ≤ nestingLimit

end Json

end CallDepth
