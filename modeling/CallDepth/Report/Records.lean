/-
# Report files

The JSON texts of a report: a list of depth records, one a row, and a list of trace records.

`DepthRow.readAll?` reads depth records back. A record is an object with each of its six fields
exactly once, of the right type, and any other fields besides; or a list of the six values in field
order.
-/
import CallDepth.Json.Printer
import CallDepth.Json.Reader
import CallDepth.Report.Basic

namespace CallDepth

namespace DepthRow

def toJson (row : DepthRow) : Json :=
  .object [
    ("file", .text row.file),
    ("contract", .text row.contract),
    ("function", .text row.function),
    ("visibility", .text row.visibility),
    ("stateMutability", .text row.mutability),
    ("expanded_max_depth", .ofNat row.depth)]

def writeAll (rows : List DepthRow) : String :=
  (Json.list (rows.map toJson)).pretty

/-- The only member under a key. -/
def onlyMember? (members : List (String × Json)) (key : String) : Option Json :=
  match members.filter (·.1 = key) with
  | [(_, value)] => some value
  | _ => none

/-- The row of six values. -/
def ofValues? (file contract function visibility mutability depth : Json) : Option DepthRow :=
  match file.text?, contract.text?, function.text?, visibility.text?, mutability.text?,
      depth.natural? with
  | some file, some contract, some function, some visibility, some mutability, some depth =>
      some { file, contract, function, visibility, mutability, depth }
  | _, _, _, _, _, _ => none

/-- The row of the members of an object. -/
def ofMembers? (members : List (String × Json)) : Option DepthRow :=
  let field := onlyMember? members
  match field "file", field "contract", field "function", field "visibility",
      field "stateMutability", field "expanded_max_depth" with
  | some file, some contract, some function, some visibility, some mutability, some depth =>
      ofValues? file contract function visibility mutability depth
  | _, _, _, _, _, _ => none

def ofJson? : Json → Option DepthRow
  | .object members => ofMembers? members
  | .list [file, contract, function, visibility, mutability, depth] =>
      ofValues? file contract function visibility mutability depth
  | _ => none

def listOfJson? : Json → Option (List DepthRow)
  | .list records => records.mapM ofJson?
  | _ => none

/-- The rows that a text of depth records holds. -/
def readAll? (text : String) : Option (List DepthRow) :=
  (Json.read? text).bind listOfJson?

end DepthRow

namespace TraceRow

def toJson (row : TraceRow) : Json :=
  .object [
    ("file", .text row.file),
    ("contract", .text row.contract),
    ("function", .text row.function),
    ("depth", .ofNat row.depth),
    ("trace", row.trace.toJson)]

def writeAll (rows : List TraceRow) : String :=
  (Json.list (rows.map toJson)).pretty

end TraceRow

end CallDepth
