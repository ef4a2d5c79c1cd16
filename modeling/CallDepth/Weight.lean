/-
# Weights of calls

What a call costs by itself, before anything it leads to.

| weight | operations |
|--------|------------|
| 0 | `assert`, `require`, `revert`, hashing and modular arithmetic, type conversions |
| 1 | `sha256`, `ripemd160`, `ecrecover`, `selfdestruct`, `abi.decode`, low-level calls |
| 2 | `abi.encode…`, `bytes.concat`, `string.concat`, `payable(x).transfer`, `payable(x).send` |

A `transfer` or `send` on anything but a converted value, such as a token contract, weighs 1.
-/
import CallDepth.Digits
import CallDepth.Node.Basic

namespace CallDepth

/-- The width a numeral spells: digits only, the first not zero, of a number of 32 bits. -/
def width? (digits : List Char) : Option Nat :=
  match digits with
  | [] => none
  | first :: _ =>
      if first ≠ '0' && digits.all isDigit && digitsValue digits < halfWordBound then
        some (digitsValue digits)
      else none

/-- The elementary types without a width. -/
def plainTypeNames : List String :=
  ["address", "payable", "bool", "string", "bytes", "byte"]

def isBytesWidth (width : Nat) : Bool :=
  1 ≤ width && width ≤ 32

def isIntegerWidth (width : Nat) : Bool :=
  width % 8 = 0 && 8 ≤ width && width ≤ 256

/-- What stands after `uint` or `int` is the width of an integer, or nothing. -/
def isIntegerSuffix (digits : List Char) : Bool :=
  digits.isEmpty || (width? digits).any isIntegerWidth

/-- The elementary type names, which are also conversion functions. -/
def isElementaryTypeName (name : String) : Bool :=
  if plainTypeNames.contains name then true
  else match name.toList with
    | 'b' :: 'y' :: 't' :: 'e' :: 's' :: digits => (width? digits).any isBytesWidth
    | 'u' :: 'i' :: 'n' :: 't' :: digits => isIntegerSuffix digits
    | 'i' :: 'n' :: 't' :: digits => isIntegerSuffix digits
    | _ => false

namespace CallSite

/-- A type conversion, such as `uint256(x)` or `payable(y)`. -/
def isTypeConversion (site : CallSite) : Bool :=
  !site.withOptions &&
    match site.callee with
    | some (.elementaryType _) => true
    | some (.elementaryTypeExpr _) => true
    | some (.typeNameExpr _) => true
    | some (.identifier name) => isElementaryTypeName name
    | _ => false

end CallSite

/-- Built-in functions that cost nothing. -/
def freeBuiltins : List String :=
  ["assert", "require", "blockhash", "blobhash", "gasleft", "addmod", "mulmod", "mullmod",
    "keccak256", "revert"]

/-- Built-in functions of weight 1. -/
def unitBuiltins : List String :=
  ["sha256", "ripemd160", "ecrecover", "selfdestruct"]

def abiEncoders : List String :=
  ["encode", "encodePacked", "encodeWithSelector", "encodeWithSignature", "encodeCall"]

def lowLevelCalls : List String :=
  ["call", "delegatecall", "staticcall"]

def valueTransfers : List String :=
  ["transfer", "send"]

namespace Node

/-- A node that converts a value to a type. -/
def isConversion (node : Node) : Bool :=
  node.callSite?.any CallSite.isTypeConversion

/-- The weight the table gives a member of an expression. -/
def memberWeight? (base : Option Node) (name : String) : Option Nat :=
  let owner := base.bind identifier?
  if owner = some "abi" then
    if name = "decode" then some 1 else if abiEncoders.contains name then some 2 else none
  else if (owner = some "bytes" || owner = some "string") && name = "concat" then some 2
  else if lowLevelCalls.contains name then some 1
  else if valueTransfers.contains name then some (if base.any isConversion then 2 else 1)
  else none

/-- The weight the table gives a callee; `none` when no rule matches. -/
def builtinWeight? : Node → Option Nat
  | identifier name =>
      if freeBuiltins.contains name then some 0
      else if unitBuiltins.contains name then some 1
      else none
  | member base name => memberWeight? base name
  | _ => none

end Node

def resolvedWeight : Nat := 1

def defaultWeight : Nat := 1

end CallDepth
