/-
# Reading trees from JSON

What `Node.ofJson` makes of a value, said without the lists of nodes that are found on the way.

* `Json.value_induction` is induction over a value, with the hypothesis for every item of a list and
  every member of an object.
* `Node.nodeField?_eq`: the node in a field is the node of a value that is a list or an object.
* `Node.nodesExcept_eq`: the other children are the nodes of the remaining members, in order.
* `Node.SameFields` relates members from which a node reads the same, its children apart.
* `Json.Alike` relates values that are read alike wherever they stand, up to a view of their nodes.
  It passes from items to lists (`Alike.list`) and from members to objects (`Alike.object`), and
  such values have trees that look the same (`Alike.tree`, `Alike.root`).
-/
import CallDepth.Node.OfJson
import Mathlib.Data.List.Forall2

namespace CallDepth

namespace Json

/-- Induction over a value: a list with the hypothesis for its items, an object with the hypothesis
for the values of its members. -/
@[elab_as_elim]
theorem value_induction {motive : Json → Prop} (value : Json)
    (list : ∀ items, (∀ item ∈ items, motive item) → motive (.list items))
    (object : ∀ members : List (String × Json), (∀ member ∈ members, motive member.2) →
      motive (.object members))
    (null : motive .null) (bool : ∀ truth, motive (.bool truth))
    (number : ∀ numeral, motive (.number numeral)) (text : ∀ content, motive (.text content))
    (unreadable : motive .unreadable) : motive value := by
  induction size : sizeOf value using Nat.strongRecOn generalizing value with
  | ind _ ih =>
      subst size
      cases value with
      | list items =>
          refine list items fun item member => ih _ ?_ item rfl
          have smaller := List.sizeOf_lt_of_mem member
          rw [Json.list.sizeOf_spec]
          omega
      | object members =>
          refine object members fun entry member => ih _ ?_ entry.2 rfl
          have smaller := List.sizeOf_lt_of_mem member
          obtain ⟨key, inner⟩ := entry
          rw [Prod.mk.sizeOf_spec] at smaller
          rw [Json.object.sizeOf_spec]
          show sizeOf inner < _
          omega
      | null => exact null
      | bool truth => exact bool truth
      | number numeral => exact number numeral
      | text content => exact text content
      | unreadable => exact unreadable

def length? : Json → Option Nat
  | .list items => some items.length
  | _ => none

/-- The number of parameters that a value lists, itself or one object further down. -/
def listedLength (parameters : Json) : Nat :=
  parameters.length?.getD (((parameters.get? "parameters").bind length?).getD 0)

/-- The name or path that an object gives of its own. -/
def ownName? (value : Json) : Option String :=
  (Node.nameField? value.members "name").or (Node.nameField? value.members "namePath")

end Json

namespace Node

/-! ## The nodes of values -/

theorem nodesOfItems_eq (items : List Json) : nodesOfItems items = items.flatMap nodesOf := by
  induction items with
  | nil => rfl
  | cons item rest ih => rw [nodesOfItems, ih, List.flatMap_cons]

theorem nodesOfMembers_eq (members : List (String × Json)) :
    nodesOfMembers members = members.map fun member => (member.1, nodesOf member.2) := by
  induction members with
  | nil => rfl
  | cons member rest ih => rw [nodesOfMembers, ih, List.map_cons]

theorem lookup_nodesOfMembers (members : List (String × Json)) (key : String) :
    (nodesOfMembers members).lookup key = (members.lookup key).map nodesOf := by
  induction members with
  | nil => rfl
  | cons member rest ih =>
      obtain ⟨name, value⟩ := member
      rw [nodesOfMembers, Assoc.lookup_cons, Assoc.lookup_cons, ih]
      split <;> rfl

/-- The node of a value in a field; a scalar has none there. -/
def fieldNode? : Json → Option Node
  | .object members => some (ofJson (.object members))
  | .list items => some (ofJson (.list items))
  | _ => none

/-- The node in a field is the node of its value. -/
theorem nodeField?_eq (members : List (String × Json)) (key : String) :
    nodeField? members (nodesOfMembers members) key = (members.lookup key).bind fieldNode? := by
  unfold nodeField?
  rw [lookup_nodesOfMembers]
  cases members.lookup key with
  | none => rfl
  | some value => cases value <;> rfl

/-- The children outside a field are the nodes of the other members. -/
theorem nodesExcept_eq (skip : List String) (members : List (String × Json)) :
    nodesExcept skip (nodesOfMembers members) =
      (members.filter fun member => !isPlain member.1 && !skip.contains member.1).flatMap
        fun member => nodesOf member.2 := by
  rw [nodesExcept, nodesOfMembers_eq, List.filter_map, List.flatMap_map]
  rfl

/-! ## What else a node reads -/

theorem listLength?_eq (members : List (String × Json)) (key : String) :
    listLength? members key = (members.lookup key).bind Json.length? := by
  unfold listLength?
  cases members.lookup key with
  | none => rfl
  | some value => cases value <;> rfl

/-- Parameters are counted in one member. -/
theorem parameterCount_eq (members : List (String × Json)) :
    parameterCount members = (members.lookup "parameters").elim 0 Json.listedLength := by
  unfold parameterCount
  cases members.lookup "parameters" with
  | none => rfl
  | some value =>
      cases value with
      | object wrapped => exact congrArg (Option.getD · 0) (listLength?_eq wrapped "parameters")
      | _ => rfl

theorem baseName?_eq (spec : Json) :
    baseName? spec = ((spec.get? "baseName").bind Json.ownName?).or spec.ownName? := by
  cases spec with
  | object members =>
      show Option.or _ _ = Option.or ((members.lookup "baseName").bind Json.ownName?) _
      cases members.lookup "baseName" with
      | none => rfl
      | some base => cases base <;> rfl
  | _ => rfl

theorem baseNames_eq (members : List (String × Json)) :
    baseNames members =
      ((members.lookup "baseContracts").elim [] fun specs =>
        specs.items.filterMap baseName?).eraseDups := by
  unfold baseNames
  cases members.lookup "baseContracts" with
  | none => rfl
  | some specs => cases specs <;> rfl

theorem ofJson_eq (value : Json) : ofJson value = (fieldNode? value).getD (other "" []) := by
  cases value <;> rfl

/-- Why a value is no root of a document, if it is none. -/
def rootError? : Json → Option RootError
  | .object members =>
      match (members.lookup "type").bind Json.text? with
      | none => some .missingTag
      | some tag => if rootTags.contains tag then none else some (.unexpectedTag tag)
  | _ => some .notObject

/-- A root is refused for its shape alone, and read like any other value. -/
theorem ofRoot_eq (value : Json) :
    ofRoot value = (rootError? value).elim (.ok (ofJson value)) .error := by
  cases value with
  | object members =>
      cases tag? : (members.lookup "type").bind Json.text? with
      | none => simp only [ofRoot, rootError?, tag?, Option.elim_some]
      | some tag =>
          simp only [ofRoot, rootError?, tag?]
          split <;> rfl
  | _ => rfl

def functionTag : String := "FunctionDefinition"

theorem tag_of_function {tag : String} (function : NodeKind.ofTag tag = .function) :
    tag = functionTag := by
  by_contra other
  revert function
  unfold NodeKind.ofTag
  rw [if_neg (show tag ≠ "FunctionDefinition" from other)]
  simp [ite_eq_iff]

/-- The members that a node reads as texts. -/
def textKeys : List String :=
  ["type", "name", "kind", "visibility", "stateMutability", "memberName"]

/-- The members that a node reads as one node. -/
def nodeKeys : List String :=
  ["body", "expression", "typeName"]

/-- Members from which a node reads the same, its children apart. Only a function counts its
parameters. -/
structure SameFields (first second : List (String × Json)) : Prop where
  text : ∀ key ∈ textKeys, textField first key = textField second key
  arguments : listLength? first "arguments" = listLength? second "arguments"
  parameters : textField first "type" = functionTag → parameterCount first = parameterCount second
  bases : baseNames first = baseNames second

/-- Nodes with the same fields look the same if their children do. -/
structure Respects (view : Node → Node) : Prop where
  assemble : ∀ {first second : List (String × Json)} {found others : List (String × List Node)},
    SameFields first second →
    (∀ skip, (nodesExcept skip found).map view = (nodesExcept skip others).map view) →
    (∀ key ∈ nodeKeys,
      (nodeField? first found key).map view = (nodeField? second others key).map view) →
    view (Node.assemble first found) = view (Node.assemble second others)
  other : ∀ {parts others : List Node}, parts.map view = others.map view →
    view (.other "" parts) = view (.other "" others)

/-- The node of an object is determined by what is read from its members and by its children. -/
theorem respects_id : Respects id where
  assemble := by
    intro first second found others fields children field
    have text := fields.text
    simp only [textKeys, nodeKeys, List.forall_mem_cons, List.map_id, Option.map_id_fun, id_eq]
      at text children field ⊢
    obtain ⟨tag, name, kind, visibility, mutability, memberName, -⟩ := text
    obtain ⟨body, expression, typeName, -⟩ := field
    cases form : NodeKind.ofTag (textField second "type") with
    | function =>
        have count := fields.parameters (tag.trans (tag_of_function form))
        simp only [assemble, tag, form, name, count, visibility, mutability, body, children]
    | _ =>
        simp only [assemble, tag, form, name, kind, memberName, fields.arguments, fields.bases,
          expression, typeName, children]
  other := by
    intro parts others same
    simpa using same

end Node

/-! ## Values that are read alike -/

namespace Json

open Node

variable {view : Node → Node} {counted : Prop}

/-- Values that are read alike, wherever they stand, up to how their nodes look. They list the same
number of parameters if that is `counted`. -/
structure Alike (view : Node → Node) (counted : Prop) (first second : Json) : Prop where
  nodes : (nodesOf first).map view = (nodesOf second).map view
  field : (fieldNode? first).map view = (fieldNode? second).map view
  text : first.text? = second.text?
  length : first.length? = second.length?
  name : first.ownName? = second.ownName?
  base : baseName? first = baseName? second
  bases : first.items.filterMap baseName? = second.items.filterMap baseName?
  rootError : rootError? first = rootError? second
  count : counted → first.listedLength = second.listedLength

theorem Alike.refl (value : Json) : Alike view counted value value :=
  ⟨rfl, rfl, rfl, rfl, rfl, rfl, rfl, rfl, fun _ => rfl⟩

/-- Values that are read alike have trees that look the same. -/
theorem Alike.tree {first second : Json} (alike : Alike view counted first second) :
    view (ofJson first) = view (ofJson second) := by
  have look : ∀ value, view (ofJson value) =
      ((fieldNode? value).map view).getD (view (other "" [])) := by
    intro value
    rw [ofJson_eq, Option.getD_map]
  rw [look, look, alike.field]

/-- Documents that are read alike are accepted or refused alike. -/
theorem Alike.root {first second : Json} (alike : Alike view counted first second) :
    (ofRoot first).map view = (ofRoot second).map view := by
  rw [ofRoot_eq, ofRoot_eq, alike.rootError]
  cases rootError? second with
  | none => exact congrArg Except.ok alike.tree
  | some error => rfl

/-- Lists are read alike if their items are. -/
theorem Alike.list (respects : Respects view) {items others : List Json}
    (each : List.Forall₂ (Alike view counted) items others) :
    Alike view True (.list items) (.list others) := by
  have length : (Json.list items).length? = (Json.list others).length? :=
    congrArg some each.length_eq
  have both : items.filterMap baseName? = others.filterMap baseName? ∧
      (nodesOfItems items).map view = (nodesOfItems others).map view := by
    induction each with
    | nil => exact ⟨rfl, rfl⟩
    | cons head tail ih =>
        obtain ⟨bases, nodes⟩ := ih (congrArg some tail.length_eq)
        constructor
        · rw [List.filterMap_cons, List.filterMap_cons, bases, head.base]
        · rw [nodesOfItems, nodesOfItems, List.map_append, List.map_append, nodes, head.nodes]
  exact {
    nodes := both.2
    field := congrArg some (respects.other both.2)
    text := rfl
    length
    name := rfl
    base := rfl
    bases := both.1
    rootError := rfl
    count := fun _ => congrArg (Option.getD · _) length }

section Lookups

variable {relation : Json → Json → Prop} {value? other? : Option Json}
  (related : Option.Rel relation value? other?)

include related

theorem bind_eq_of_rel {β : Type} {read : Json → Option β}
    (same : ∀ {value other}, relation value other → read value = read other) :
    value?.bind read = other?.bind read := by
  cases related with
  | none => rfl
  | some alike => exact same alike

theorem elim_eq_of_rel {β : Type} {missing : β} {read : Json → β}
    (same : ∀ {value other}, relation value other → read value = read other) :
    value?.elim missing read = other?.elim missing read := by
  cases related with
  | none => rfl
  | some alike => exact same alike

end Lookups

def readKeys : List String :=
  textKeys ++ nodeKeys ++ ["namePath", "baseName", "baseContracts", "arguments", "parameters"]

section Members

variable {first second : List (String × Json)}
  (lookups : ∀ key ∈ readKeys,
    Option.Rel (Alike view counted) (first.lookup key) (second.lookup key))

include lookups

theorem Alike.ownName?_object : (object first).ownName? = (object second).ownName? := by
  have names : ∀ key ∈ readKeys, nameField? first key = nameField? second key := fun key inside =>
    congrArg (Option.filter _) (bind_eq_of_rel (lookups key inside) Alike.text)
  show Option.or (nameField? first "name") (nameField? first "namePath") = _
  rw [names "name" (by decide), names "namePath" (by decide)]
  rfl

/-- Objects are read alike if their members are, as far as they are read. -/
theorem Alike.object (respects : Respects view)
    (parameters : textField first "type" = functionTag →
      Node.parameterCount first = Node.parameterCount second)
    (children : ∀ skip, (nodesExcept skip (nodesOfMembers first)).map view =
      (nodesExcept skip (nodesOfMembers second)).map view) :
    Alike view True (.object first) (.object second) := by
  have lengths : ∀ key ∈ readKeys, (first.lookup key).bind Json.length? =
      (second.lookup key).bind Json.length? := fun key inside =>
    bind_eq_of_rel (lookups key inside) Alike.length
  have texts : ∀ key ∈ readKeys, (first.lookup key).bind Json.text? =
      (second.lookup key).bind Json.text? := fun key inside =>
    bind_eq_of_rel (lookups key inside) Alike.text
  have fields : SameFields first second := {
    text := fun key inside => congrArg (Option.getD · "") (texts key (by simp [readKeys, inside]))
    arguments := by
      rw [listLength?_eq, listLength?_eq, lengths "arguments" (by decide)]
    parameters
    bases := by
      rw [baseNames_eq, baseNames_eq]
      exact congrArg _ (elim_eq_of_rel (lookups "baseContracts" (by decide)) Alike.bases) }
  have node : view (ofJson (.object first)) = view (ofJson (.object second)) := by
    refine respects.assemble fields children fun key inside => ?_
    rw [nodeField?_eq, nodeField?_eq, Option.map_bind, Option.map_bind]
    exact bind_eq_of_rel (lookups key (by simp [readKeys, inside])) Alike.field
  have name := Alike.ownName?_object lookups
  exact {
    nodes := congrArg (fun node => [node]) node
    field := congrArg some node
    text := rfl
    length := rfl
    name
    base := by
      rw [baseName?_eq, baseName?_eq, name]
      exact congrArg (Option.or · _) (bind_eq_of_rel (lookups "baseName" (by decide)) Alike.name)
    bases := rfl
    rootError := by simp only [rootError?, texts "type" (by decide)]
    count := fun _ => congrArg (Option.getD · 0) (lengths "parameters" (by decide)) }

end Members

end Json

end CallDepth
