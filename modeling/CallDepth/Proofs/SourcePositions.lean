/-
# Source positions do not matter

Documents say of every construct where it stands in the source, in members `loc` and `range`. These
may hold anything, calls and definitions included. `Json.withoutPositions` removes them at every
level, and the tree that is read stays the same.

* `lookup_withoutPositions`: any other member is still there, without positions itself.
* `nodesExcept_withoutPositions`: a position is no child, so the children are the same.
* `alike_withoutPositions`: so every value is read as before, by induction over the value.
-/
import CallDepth.Proofs.JsonTrees
import CallDepth.Report.Basic

namespace CallDepth

/-- A member that holds a source position. -/
def isPosition (key : String) : Bool :=
  key = "loc" || key = "range"

namespace Json

mutual

/-- The value without source positions: members `loc` and `range` are removed at every level. -/
def withoutPositions : Json → Json
  | .list items => .list (itemsWithoutPositions items)
  | .object members => .object (membersWithoutPositions members)
  | value => value

def itemsWithoutPositions : List Json → List Json
  | [] => []
  | item :: rest => item.withoutPositions :: itemsWithoutPositions rest

def membersWithoutPositions : List (String × Json) → List (String × Json)
  | [] => []
  | (key, value) :: rest =>
      if isPosition key then membersWithoutPositions rest
      else (key, value.withoutPositions) :: membersWithoutPositions rest

end

theorem itemsWithoutPositions_eq (items : List Json) :
    itemsWithoutPositions items = items.map withoutPositions := by
  induction items with
  | nil => rfl
  | cons item rest ih => rw [itemsWithoutPositions, ih, List.map_cons]

theorem membersWithoutPositions_eq (members : List (String × Json)) :
    membersWithoutPositions members =
      (members.filter fun member => !isPosition member.1).map fun member =>
        (member.1, member.2.withoutPositions) := by
  induction members with
  | nil => rfl
  | cons member rest ih =>
      obtain ⟨key, value⟩ := member
      rw [membersWithoutPositions, ih, List.filter_cons]
      cases isPosition key <;> rfl

/-- Members that are no source positions stay, without the positions inside them. -/
theorem lookup_withoutPositions (members : List (String × Json)) (key : String)
    (content : isPosition key = false) :
    (membersWithoutPositions members).lookup key = (members.lookup key).map withoutPositions := by
  induction members with
  | nil => rfl
  | cons member rest ih =>
      obtain ⟨name, value⟩ := member
      rw [membersWithoutPositions, Assoc.lookup_cons]
      by_cases here : key = name
      · subst here
        simp [content]
      · cases isPosition name <;> simp [Assoc.lookup_cons, here, ih]

/-! ## Trees -/

/-- No position is read. -/
theorem isPosition_of_read : ∀ key ∈ readKeys, isPosition key = false := by
  decide

/-- No node is read from a source position. -/
theorem isPlain_of_isPosition {key : String} (position : isPosition key = true) :
    Node.isPlain key = true := by
  simp only [isPosition, Node.isPlain, Bool.or_eq_true] at position ⊢
  tauto

section Members

variable {members : List (String × Json)}
  (each : ∀ member ∈ members, Alike id True member.2.withoutPositions member.2)

include each

theorem lookup_alike_withoutPositions (key : String) (content : isPosition key = false) :
    Option.Rel (Alike id True) ((membersWithoutPositions members).lookup key)
      (members.lookup key) := by
  rw [lookup_withoutPositions members key content]
  cases found : members.lookup key with
  | none => exact .none
  | some value =>
      obtain ⟨before, after, listed, -⟩ := List.lookup_eq_some_iff.1 found
      exact .some (each (key, value) (by simp [listed]))

theorem nodesExcept_withoutPositions (skip : List String) :
    Node.nodesExcept skip (Node.nodesOfMembers (membersWithoutPositions members)) =
      Node.nodesExcept skip (Node.nodesOfMembers members) := by
  rw [Node.nodesExcept_eq, Node.nodesExcept_eq, membersWithoutPositions_eq, List.filter_map,
    List.flatMap_map, List.filter_filter]
  -- Positions are among the members that hold no children.
  have kept : ∀ member ∈ members,
      (!Node.isPlain member.1 && !skip.contains member.1 && !isPosition member.1) =
        (!Node.isPlain member.1 && !skip.contains member.1) := by
    intro member _
    cases position : isPosition member.1 with
    | false => simp
    | true => simp [isPlain_of_isPosition position]
  refine (congrArg (List.flatMap _) (List.filter_congr kept)).trans ?_
  refine List.flatMap_congr fun member inside => ?_
  have nodes := (each member (List.mem_of_mem_filter inside)).nodes
  rwa [List.map_id, List.map_id] at nodes

end Members

/-- A value is read alike without source positions. -/
theorem alike_withoutPositions (value : Json) : Alike id True value.withoutPositions value := by
  induction value using value_induction with
  | list items each =>
      rw [withoutPositions, itemsWithoutPositions_eq]
      exact Alike.list Node.respects_id
        (List.forall₂_map_left_iff.2 (List.forall₂_same.2 each))
  | object members each =>
      have lookups : ∀ key ∈ readKeys, Option.Rel (Alike id True)
          ((membersWithoutPositions members).lookup key) (members.lookup key) := fun key inside =>
        lookup_alike_withoutPositions each key (isPosition_of_read key inside)
      refine Alike.object lookups Node.respects_id (fun _ => ?_) fun skip => ?_
      · rw [Node.parameterCount_eq, Node.parameterCount_eq]
        exact elim_eq_of_rel (lookups "parameters" (by decide)) fun alike => alike.count trivial
      · rw [nodesExcept_withoutPositions each]
  | _ => exact Alike.refl _

end Json

namespace Node

open Json

/-- A tree is the same without source positions. -/
theorem ofJson_withoutPositions (value : Json) : ofJson value.withoutPositions = ofJson value :=
  (alike_withoutPositions value).tree

/-- A document is accepted or refused as before, and read as the same tree. -/
theorem ofRoot_withoutPositions (value : Json) :
    ofRoot value.withoutPositions = ofRoot value := by
  have root := (alike_withoutPositions value).root
  rwa [Except.map_id, id_eq, id_eq] at root

end Node

/-! ## Documents -/

namespace Document

def withoutPositions (document : Document) : Document :=
  { document with value := document.value.withoutPositions }

variable (document : Document)

theorem analyze_withoutPositions (options : Options) :
    document.withoutPositions.analyze options = document.analyze options :=
  congrArg (Except.map (CallDepth.analyze options)) (Node.ofRoot_withoutPositions document.value)

theorem report_withoutPositions (settings : Settings) :
    document.withoutPositions.report settings = document.report settings := by
  rw [report, report, analyze_withoutPositions]
  rfl

theorem log_withoutPositions (options : Options) :
    document.withoutPositions.log options = document.log options := by
  rw [log, log, analyze_withoutPositions]

end Document

theorem Report.ofDocuments_withoutPositions (settings : Settings) (documents : List Document) :
    ofDocuments settings (documents.map Document.withoutPositions) =
      ofDocuments settings documents := by
  rw [ofDocuments_eq_concat, ofDocuments_eq_concat, List.map_map]
  refine congrArg concat (List.map_congr_left fun document _ => ?_)
  exact document.report_withoutPositions settings

theorem Report.log_withoutPositions (settings : Settings) (documents : List Document) :
    Report.log settings (documents.map Document.withoutPositions) =
      Report.log settings documents := by
  rw [log, log, ofDocuments_withoutPositions, List.length_map, List.flatMap_map]
  simp only [Document.log_withoutPositions]

/-- Source positions do not matter. Without the members `loc` and `range` of every object in it, at
any level and whatever they hold, a value is read as the same tree, and a document is accepted or
refused as before, with the same error. So its analysis has the same rows, traces and events, and a
batch of documents the same report and the same log. -/
theorem positions_irrelevant (value : Json) :
    Node.ofJson value.withoutPositions = Node.ofJson value ∧
    Node.ofRoot value.withoutPositions = Node.ofRoot value ∧
    (∀ (options : Options) (file : String),
      (Document.mk file value.withoutPositions).analyze options =
        (Document.mk file value).analyze options) ∧
    ∀ (settings : Settings) (documents : List Document),
      Report.ofDocuments settings (documents.map Document.withoutPositions) =
        Report.ofDocuments settings documents ∧
      Report.log settings (documents.map Document.withoutPositions) =
        Report.log settings documents :=
  ⟨Node.ofJson_withoutPositions value, Node.ofRoot_withoutPositions value,
    fun options file => (Document.mk file value).analyze_withoutPositions options,
    fun settings documents => ⟨Report.ofDocuments_withoutPositions settings documents,
      Report.log_withoutPositions settings documents⟩⟩

-- Whatever a position holds goes with it.
example : (Json.list [.object [("loc", .object [("type", .text "FunctionCall")]),
      ("body", .object [("range", .list [.null]), ("name", .text "ring")])]]).withoutPositions =
    .list [.object [("body", .object [("name", .text "ring")])]] := by
  rfl

end CallDepth
