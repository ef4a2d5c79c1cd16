/-
# Reading JSON

`build?` turns tokens into a value. The builder keeps the containers around the current place on a
stack (`Frame`), so a text may nest without bound; each token moves it by one `Builder.step`.

* `read?` reads a text as written: repeated members are kept and literals that denote nothing are
  `unreadable`.
* `readDocument?` reads the bytes of a document: UTF-8, every literal readable, nested at most
  `nestingLimit` deep, and one value per key.
-/
import CallDepth.Json.Token

namespace CallDepth.Json

/-- A container that is being read, with what came before, newest first. -/
inductive Frame where
  /-- A list, reading the item after `before`. -/
  | list (before : List Json)
  /-- An object, reading the value of `key`. -/
  | object (before : List (Option String × Json)) (key : Option String)

/-- What the builder expects next. -/
inductive Builder where
  /-- A value. -/
  | value (stack : List Frame)
  /-- The first item of a list, or its end. -/
  | firstItem (stack : List Frame)
  /-- The first key of an object, or its end. -/
  | firstKey (stack : List Frame)
  /-- The key after a comma. -/
  | nextKey (before : List (Option String × Json)) (stack : List Frame)
  /-- The colon after a key. -/
  | colon (before : List (Option String × Json)) (key : Option String) (stack : List Frame)
  /-- Whatever may follow the value in the innermost container. -/
  | after (value : Json) (stack : List Frame)

/-- The object of members. A key is `none` when its literal denotes no text; then the object denotes
no value either. -/
def ofMembers (members : List (Option String × Json)) : Json :=
  match members.mapM fun (key, value) => key.map (·, value) with
  | some named => .object named
  | none => .unreadable

namespace Builder

def key? : Token → Option (Option String)
  | .string content => some content
  | _ => none

def textValue : Option String → Json
  | some content => .text content
  | none => .unreadable

/-- The first token of a value. -/
def start : Token → List Frame → Option Builder
  | .string content, stack => some (after (textValue content) stack)
  | .scalar item, stack => some (after item stack)
  | .listOpen, stack => some (firstItem stack)
  | .objectOpen, stack => some (firstKey stack)
  | _, _ => none

def step : Builder → Token → Option Builder
  | value stack, token => start token stack
  | firstItem stack, .listClose => some (after (.list []) stack)
  | firstItem stack, token => start token (.list [] :: stack)
  | firstKey stack, .objectClose => some (after (.object []) stack)
  | firstKey stack, token => (key? token).map fun key => colon [] key stack
  | nextKey before stack, token => (key? token).map fun key => colon before key stack
  | colon before key stack, .colon => some (value (.object before key :: stack))
  | after item (.list before :: stack), .comma => some (value (.list (item :: before) :: stack))
  | after item (.list before :: stack), .listClose =>
      some (after (.list (item :: before).reverse) stack)
  | after item (.object before key :: stack), .comma =>
      some (nextKey ((key, item) :: before) stack)
  | after item (.object before key :: stack), .objectClose =>
      some (after (ofMembers ((key, item) :: before).reverse) stack)
  | _, _ => none

def run (builder : Builder) : List Token → Option Builder
  | [] => some builder
  | token :: rest =>
      match builder.step token with
      | none => none
      | some next => next.run rest

/-- The value read, when nothing is open. -/
def finish : Builder → Option Json
  | after item [] => some item
  | _ => none

end Builder

/-- The value that tokens spell. -/
def build? (tokens : List Token) : Option Json :=
  ((Builder.value []).run tokens).bind Builder.finish

/-- The value a text spells, as written. -/
def read? (text : String) : Option Json :=
  (tokens? text.toList).bind build?

def readDocument? (bytes : ByteArray) : Option Json :=
  match (String.fromUTF8? bytes).bind read? with
  | none => none
  | some written => if written.isDocument then some written.settle else none

end CallDepth.Json
