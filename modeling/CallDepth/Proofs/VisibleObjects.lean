/-
# Reading a tree loses no call and no definition

`Json.visible` lists the objects of a value that a tree is read from, by a plain descent: through
lists and through all members but tags and source positions. Names and types have nothing below
them, and a member access or a type in the place of an expression has one field.

A tree is read otherwise. The body of a function and the callee of a call are taken from their
fields, where a list becomes a node, and the other members are flattened into the remaining
children. Still every visible object that is a call, a function, a contract, a struct or an event
becomes one node, and no other node is one of these (`ofJson_keeps_constructs`).

Fields are looked up by key, so an object has to have one member per key. That is what the rule for
repeated keys leaves of every text (`hasDistinctKeys_settle`).
-/
import CallDepth.Proofs.JsonTrees
import CallDepth.Proofs.SymbolCollection
import Mathlib.Data.List.Perm.Basic

namespace CallDepth

namespace Json

/-! ## Values with one member per key -/

mutual

/-- Every object of the value has one member per key. -/
def hasDistinctKeys : Json → Bool
  | .list items => itemsHaveDistinctKeys items
  | .object members => decide (Assoc.keys members).Nodup && membersHaveDistinctKeys members
  | _ => true

def itemsHaveDistinctKeys : List Json → Bool
  | [] => true
  | item :: rest => item.hasDistinctKeys && itemsHaveDistinctKeys rest

def membersHaveDistinctKeys : List (String × Json) → Bool
  | [] => true
  | (_, value) :: rest => value.hasDistinctKeys && membersHaveDistinctKeys rest

end

theorem hasDistinctKeys_list_iff {items : List Json} :
    (list items).hasDistinctKeys = true ↔ ∀ item ∈ items, item.hasDistinctKeys = true := by
  rw [hasDistinctKeys]
  induction items with
  | nil => simp [itemsHaveDistinctKeys]
  | cons item rest ih => simp [itemsHaveDistinctKeys, ih]

theorem hasDistinctKeys_object_iff {members : List (String × Json)} :
    (object members).hasDistinctKeys = true ↔
      (Assoc.keys members).Nodup ∧ ∀ member ∈ members, member.2.hasDistinctKeys = true := by
  have values : membersHaveDistinctKeys members = true ↔
      ∀ member ∈ members, member.2.hasDistinctKeys = true := by
    induction members with
    | nil => simp [membersHaveDistinctKeys]
    | cons member rest ih =>
        rw [membersHaveDistinctKeys, Bool.and_eq_true, ih, List.forall_mem_cons]
  rw [hasDistinctKeys, Bool.and_eq_true, decide_eq_true_iff, values]

theorem hasDistinctKeys_settleMembers {members : List (String × Json)}
    (each : ∀ member ∈ members, member.2.settle.hasDistinctKeys = true)
    {settled : List (String × Json)} (before : (object settled).hasDistinctKeys = true) :
    (object (settleMembers settled members)).hasDistinctKeys = true := by
  induction members generalizing settled with
  | nil => exact before
  | cons member rest ih =>
      obtain ⟨key, value⟩ := member
      obtain ⟨here, later⟩ := List.forall_mem_cons.1 each
      obtain ⟨nodup, values⟩ := hasDistinctKeys_object_iff.1 before
      refine ih later (hasDistinctKeys_object_iff.2 ⟨Assoc.nodup_keys_put nodup _ _, ?_⟩)
      intro entry inside
      rcases Assoc.mem_put inside with old | same
      · exact values entry old
      · rw [same]
        exact here

/-- The rule for repeated keys leaves one member per key in every object. -/
theorem hasDistinctKeys_settle (value : Json) : value.settle.hasDistinctKeys = true := by
  induction value using value_induction with
  | list items each =>
      have settled : ∀ items : List Json, settleItems items = items.map settle := by
        intro items
        induction items with
        | nil => rfl
        | cons item rest ih => rw [settleItems, ih, List.map_cons]
      rw [settle, settled, hasDistinctKeys_list_iff]
      exact List.forall_mem_map.2 each
  | object members each => exact hasDistinctKeys_settleMembers each (by rfl)
  | _ => rfl

/-! ## Visible objects -/

/-- The text of a member; empty when it is missing or no text. -/
def textAt (value : Json) (key : String) : String :=
  ((value.get? key).bind text?).getD ""

/-- A member of an object with a tag is visited. Below names and types none is, and below a member
access or a type in the place of an expression only one. -/
def isVisited (tag key : String) : Bool :=
  if tag = "Identifier" || tag = "ElementaryTypeName" || tag = "This" then false
  else if tag = "MemberAccess" then key = "expression"
  else if tag = "ElementaryTypeNameExpression" then key = "typeName"
  else key ≠ "type" && key ≠ "loc" && key ≠ "range"

mutual

/-- The visible objects of a value, each before those below it. -/
def visible : Json → List Json
  | .object members =>
      .object members :: visibleInMembers ((object members).textAt "type") members
  | .list items => visibleInItems items
  | _ => []

def visibleInItems : List Json → List Json
  | [] => []
  | item :: rest => item.visible ++ visibleInItems rest

def visibleInMembers (tag : String) : List (String × Json) → List Json
  | [] => []
  | (key, value) :: rest =>
      (if isVisited tag key then value.visible else []) ++ visibleInMembers tag rest

end

theorem visible_list (items : List Json) : (list items).visible = items.flatMap visible := by
  rw [visible]
  induction items with
  | nil => rfl
  | cons item rest ih => rw [visibleInItems, ih, List.flatMap_cons]

/-- Below an object only the visited members are visible. -/
theorem visible_object (members : List (String × Json)) :
    (object members).visible =
      object members :: (members.filter fun member =>
        isVisited ((object members).textAt "type") member.1).flatMap fun member =>
          member.2.visible := by
  rw [visible]
  congr 1
  generalize (object members).textAt "type" = tag
  induction members with
  | nil => rfl
  | cons member rest ih =>
      obtain ⟨key, value⟩ := member
      rw [visibleInMembers, ih, List.filter_cons]
      split <;> simp

end Json

/-! ## Calls and definitions -/

/-- A call or a definition, with what tells it apart from others. -/
inductive Construct where
  | call (withOptions : Bool) (argumentCount : Option Nat)
  | function (name : String) (arity : Nat)
  | contract (name : String)
  | struct (name : String)
  | event (name : String)
deriving DecidableEq, Repr

namespace Json

/-- The number of parameters of a function: they are listed, or an object lists them. -/
def parameterCount (function : Json) : Nat :=
  (function.get? "parameters").elim 0 listedLength

/-- The call or definition that an object is, by its tag. -/
def construct? (object : Json) : Option Construct :=
  let tag := object.textAt "type"
  let name := object.textAt "name"
  let argumentCount := (object.get? "arguments").bind length?
  if tag = "FunctionCall" then some (.call false argumentCount)
  else if tag = "FunctionCallOptions" then some (.call true argumentCount)
  else if tag = "FunctionDefinition" then some (.function name object.parameterCount)
  else if tag = "ContractDefinition" || tag = "LibraryDefinition" then some (.contract name)
  else if tag = "StructDefinition" then some (.struct name)
  else if tag = "EventDefinition" then some (.event name)
  else none

end Json

namespace Node

/-- The call or definition that a node is. -/
def construct? : Node → Option Construct
  | call withOptions _ argumentCount _ => some (.call withOptions argumentCount)
  | function name arity _ _ _ _ => some (.function name arity)
  | contract name _ _ _ => some (.contract name)
  | struct name _ => some (.struct name)
  | event name _ => some (.event name)
  | _ => none

def constructs (node : Node) : List Construct :=
  node.preorder.filterMap construct?

theorem constructs_eq (node : Node) :
    node.constructs = node.construct?.toList ++ node.children.flatMap constructs := by
  rw [constructs, preorder_eq, List.filterMap_cons, List.filterMap_flatMap]
  cases node.construct? <;> rfl

/-- The tags that stand for a kind of their own. -/
def knownTags : List String :=
  ["ContractDefinition", "LibraryDefinition", "FunctionDefinition", "StructDefinition",
    "EventDefinition", "FunctionCall", "FunctionCallOptions", "Identifier", "MemberAccess",
    "ElementaryTypeName", "ElementaryTypeNameExpression", "TypeNameExpression", "This"]

theorem isVisited_eq (tag key : String) :
    Json.isVisited tag key =
      match NodeKind.ofTag tag with
      | .identifier | .elementaryType | .thisRef => false
      | .member => decide (key = "expression")
      | .elementaryTypeExpr => decide (key = "typeName")
      | _ => !isPlain key := by
  by_cases known : tag ∈ knownTags
  · simp only [knownTags, List.mem_cons, List.not_mem_nil, or_false] at known
    rcases known with
        rfl | rfl | rfl | rfl | rfl | rfl | rfl | rfl | rfl | rfl | rfl | rfl | rfl <;>
      simp [NodeKind.ofTag, Json.isVisited, isPlain]
  · simp only [knownTags, List.mem_cons, List.not_mem_nil, or_false, not_or] at known
    simp [NodeKind.ofTag, Json.isVisited, isPlain, known]

theorem textAt_object (members : List (String × Json)) (key : String) :
    (Json.object members).textAt key = textField members key :=
  rfl

theorem get?_object (members : List (String × Json)) (key : String) :
    (Json.object members).get? key = members.lookup key :=
  rfl

/-- An object is the call or definition that its node is. -/
theorem construct?_assemble (members : List (String × Json)) (found : List (String × List Node)) :
    (assemble members found).construct? = (Json.object members).construct? := by
  simp only [assemble, Json.construct?, Json.parameterCount, textAt_object, get?_object,
    ← listLength?_eq, ← parameterCount_eq]
  by_cases known : textField members "type" ∈ knownTags
  · simp only [knownTags, List.mem_cons, List.not_mem_nil, or_false] at known
    rcases known with
        tag | tag | tag | tag | tag | tag | tag | tag | tag | tag | tag | tag | tag <;>
      simp [NodeKind.ofTag, construct?, tag]
  · simp only [knownTags, List.mem_cons, List.not_mem_nil, or_false, not_or] at known
    simp [NodeKind.ofTag, construct?, known]

/-! ## Children -/

theorem constructs_other (tag : String) (parts : List Node) :
    (other tag parts).constructs = parts.flatMap constructs :=
  constructs_eq _

/-- The node in a field has the calls and definitions of the nodes that the value holds. -/
theorem constructs_fieldNode? (value : Json) :
    (fieldNode? value).toList.flatMap constructs = (nodesOf value).flatMap constructs := by
  cases value with
  | list items =>
      show [other "" (nodesOf (.list items))].flatMap constructs = _
      rw [List.flatMap_singleton, constructs_other]
  | _ => rfl

section Members

variable {members : List (String × Json)}

theorem flatMap_of_key {β : Type} (distinct : (Assoc.keys members).Nodup) (key : String)
    (f : Json → List β) :
    ((members.filter fun member => member.1 = key).flatMap fun member => f member.2) =
      (members.lookup key).toList.flatMap f := by
  induction members with
  | nil => rfl
  | cons member rest ih =>
      obtain ⟨name, value⟩ := member
      obtain ⟨alone, later⟩ := List.nodup_cons.1 distinct
      rw [List.filter_cons, Assoc.lookup_cons]
      by_cases here : name = key
      · subst here
        have none : (rest.filter fun member => member.1 = name) = [] := by
          refine List.filter_eq_nil_iff.2 fun member inside same => alone ?_
          exact List.mem_map.2 ⟨member, inside, of_decide_eq_true same⟩
        simp [none]
      · have away : key ≠ name := Ne.symm here
        simp [here, away, ih later]

variable (distinct : (Assoc.keys members).Nodup)

theorem constructs_nodesExcept (skip : List String) :
    (nodesExcept skip (nodesOfMembers members)).flatMap constructs =
      (members.filter fun member => !isPlain member.1 && !skip.contains member.1).flatMap
        fun member => (nodesOf member.2).flatMap constructs := by
  rw [nodesExcept_eq, List.flatMap_assoc]

include distinct

theorem constructs_nodeField? (key : String) :
    (nodeField? members (nodesOfMembers members) key).toList.flatMap constructs =
      (members.filter fun member => member.1 = key).flatMap
        fun member => (nodesOf member.2).flatMap constructs := by
  rw [nodeField?_eq, flatMap_of_key distinct key fun value => (nodesOf value).flatMap constructs]
  cases members.lookup key with
  | none => rfl
  | some value => simpa using constructs_fieldNode? value

/-- What is taken from a field and what is left for the other children make up all members. -/
theorem constructs_field_append {key : String} (content : isPlain key = false) :
    (((nodeField? members (nodesOfMembers members) key).toList ++
      nodesExcept [key] (nodesOfMembers members)).flatMap constructs).Perm
      ((members.filter fun member => !isPlain member.1).flatMap
        fun member => (nodesOf member.2).flatMap constructs) := by
  rw [List.flatMap_append, constructs_nodeField? distinct, constructs_nodesExcept,
    ← List.flatMap_append]
  refine List.Perm.flatMap_right _ ?_
  have split := List.filter_append_perm (fun member : String × Json => decide (member.1 = key))
    (members.filter fun member => !isPlain member.1)
  rw [List.filter_filter, List.filter_filter] at split
  refine .trans (.of_eq (congrArg₂ (· ++ ·) ?_ ?_)) split
  · refine List.filter_congr fun member _ => ?_
    by_cases here : member.1 = key <;> simp [here, content]
  · refine List.filter_congr fun member _ => ?_
    by_cases here : member.1 = key <;> simp [here]

/-- The children of the node of an object have the calls and definitions of the visited members. -/
theorem constructs_children :
    ((assemble members (nodesOfMembers members)).children.flatMap constructs).Perm
      ((members.filter fun member =>
        Json.isVisited (textField members "type") member.1).flatMap
          fun member => (nodesOf member.2).flatMap constructs) := by
  have all : ((nodesExcept [] (nodesOfMembers members)).flatMap constructs).Perm
      ((members.filter fun member => !isPlain member.1).flatMap
        fun member => (nodesOf member.2).flatMap constructs) := by
    rw [constructs_nodesExcept]
    simp
  cases kind : NodeKind.ofTag (textField members "type") <;>
    simp only [assemble, isVisited_eq, kind, children]
  case function => exact constructs_field_append distinct (by rfl)
  case call | callOptions => exact constructs_field_append distinct (by rfl)
  case member | elementaryTypeExpr => exact .of_eq (constructs_nodeField? distinct _)
  case identifier | elementaryType | thisRef => simp
  all_goals exact all

end Members

/-- The nodes of a value have the calls and definitions that its visible objects are. -/
theorem constructs_nodesOf (value : Json) (distinct : value.hasDistinctKeys = true) :
    ((nodesOf value).flatMap constructs).Perm (value.visible.filterMap Json.construct?) := by
  induction value using Json.value_induction with
  | list items each =>
      rw [nodesOf, nodesOfItems_eq, List.flatMap_assoc, Json.visible_list, List.filterMap_flatMap]
      have inner := Json.hasDistinctKeys_list_iff.1 distinct
      exact List.Perm.flatMap_left _ fun item inside => each item inside (inner item inside)
  | object members each =>
      obtain ⟨nodup, inner⟩ := Json.hasDistinctKeys_object_iff.1 distinct
      rw [nodesOf, List.flatMap_singleton, constructs_eq, construct?_assemble, Json.visible_object,
        List.filterMap_cons, List.filterMap_flatMap]
      have below := (constructs_children nodup).trans <| List.Perm.flatMap_left _
        fun member inside => each member (List.mem_of_mem_filter inside)
          (inner member (List.mem_of_mem_filter inside))
      cases (Json.object members).construct? with
      | none => exact below
      | some construct => exact below.cons construct
  | _ => exact .nil

/-- A tree has the calls and definitions of the nodes that the value holds. -/
theorem constructs_ofJson (value : Json) :
    (ofJson value).constructs = (nodesOf value).flatMap constructs := by
  cases value with
  | object members => exact (List.flatMap_singleton _ _).symm
  | _ => exact constructs_other _ _

end Node

/-- Reading a tree loses no call and no definition. Take any value with one member per key. The
calls, functions, contracts, structs and events among the nodes of its tree are, with their argument
counts, names and parameter counts, the visible objects of the value that are tagged so: each of
them once, and nothing else. -/
theorem ofJson_keeps_constructs (value : Json) (distinct : value.hasDistinctKeys = true) :
    ((Node.ofJson value).preorder.filterMap Node.construct?).Perm
      (value.visible.filterMap Json.construct?) := by
  have nodes : (Node.ofJson value).preorder.filterMap Node.construct? = _ :=
    Node.constructs_ofJson value
  rw [nodes]
  exact Node.constructs_nodesOf value distinct

/-- A contract as it is written, with a repeated body, of which the last one counts. The body is a
list, and calls stand in its callee, in a source position and below a name. -/
def belfry : Json :=
  let object (tag : String) (members : List (String × Json)) : Json :=
    .object (("type", .text tag) :: members)
  let bell (members : List (String × Json)) : Json :=
    object "Identifier" (("name", .text "bell") :: members)
  .list [.list [object "ContractDefinition" [("name", .text "Belfry"), ("subNodes", .list [
    object "FunctionDefinition" [
      ("name", .text "ring"),
      ("body", object "FunctionCall" []),
      ("parameters", .list [object "VariableDeclaration" [], .null]),
      ("loc", object "FunctionCall" []),
      ("body", .list [.list [object "FunctionCall" [
        ("arguments", .list [bell [("hint", object "FunctionCall" [])]]),
        ("expression", object "MemberAccess" [
          ("memberName", .text "toll"),
          ("expression", object "FunctionCallOptions" [("expression", bell [])])])]]])],
    object "EventDefinition" [("name", .text "Rung")]])]], .null]

theorem belfry_keeps_constructs :
    belfry.hasDistinctKeys = false ∧ belfry.settle.hasDistinctKeys = true ∧
    ((Node.ofJson belfry.settle).preorder.filterMap Node.construct?).Perm
      (belfry.settle.visible.filterMap Json.construct?) ∧
    belfry.settle.visible.filterMap Json.construct? =
      [.contract "Belfry", .function "ring" 2, .call false (some 1), .call true none,
        .event "Rung"] :=
  ⟨by decide, Json.hasDistinctKeys_settle belfry,
    ofJson_keeps_constructs belfry.settle (Json.hasDistinctKeys_settle belfry), by decide⟩

end CallDepth
