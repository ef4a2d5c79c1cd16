/-
# Two layouts of parameters

A function lists its parameters in a member `parameters`, or has an object there that lists them
under the same key. `parameter_layouts_agree` says that an analysis does not tell these layouts
apart, wherever in a document the function stands.

* `Json.Layer` is one step from a value to what stands around it, and a place is a list of layers.
* `alike_layouts`: the function itself is read alike in both layouts, up to the group that the
  object adds to the tree.
* `Layer.alike_fill`: so is every value around it, layer by layer (`alike_fill`).

There is one exception. A function that stands as the parameters of another one, where a list or an
object with a list is expected, decides by its own layout how many parameters the other one has.
-/
import CallDepth.Proofs.JsonTrees
import CallDepth.Proofs.Regrouping
import CallDepth.Report.Basic

namespace CallDepth

namespace Node

/-- Nodes with the same fields are the same without groups if their children are. -/
theorem respects_ungrouped : Respects ungrouped where
  assemble := by
    intro first second found others fields children field
    have text := fields.text
    simp only [textKeys, nodeKeys, List.forall_mem_cons] at text field
    obtain ⟨tag, name, kind, visibility, mutability, memberName, -⟩ := text
    obtain ⟨body, expression, typeName, -⟩ := field
    cases form : NodeKind.ofTag (textField second "type") with
    | function =>
        have count := fields.parameters (tag.trans (tag_of_function form))
        simp only [assemble, tag, form, ungrouped, ungroupedAll_eq, ungroupedOption_eq, name, count,
          visibility, mutability, body, children]
    | _ =>
        simp only [assemble, tag, form, ungrouped, ungroupedAll_eq, ungroupedOption_eq, name, kind,
          memberName, fields.arguments, fields.bases, expression, typeName, children]
  other := by
    intro parts others same
    rw [ungrouped, ungrouped, ungroupedAll_eq, ungroupedAll_eq, same]

end Node

namespace Json

open Node

/-! ## Places in a value -/

/-- What stands around a value, in the list or the object that it is in. -/
inductive Layer where
  | item (before after : List Json)
  | member (before : List (String × Json)) (key : String) (after : List (String × Json))

namespace Layer

def fill : Layer → Json → Json
  | item before after, value => .list (before ++ value :: after)
  | member before key after, value => .object (before ++ (key, value) :: after)

/-- The layer stands around the parameters of a function. -/
def holdsParameters : Layer → Bool
  | item _ _ => false
  | member before key after =>
      key = "parameters" && textField (before ++ after) "type" = functionTag

theorem eq_member_of_holdsParameters {layer : Layer} (holds : layer.holdsParameters = true) :
    ∃ before after, layer = .member before "parameters" after ∧
      textField (before ++ after) "type" = functionTag := by
  cases layer with
  | item before after => cases holds
  | member before key after =>
      simp only [holdsParameters, Bool.and_eq_true, decide_eq_true_eq] at holds
      obtain ⟨rfl, tag⟩ := holds
      exact ⟨before, after, rfl, tag⟩

end Layer

/-- A value with all that stands around it, from the innermost layer out. -/
def fill (place : List Layer) (value : Json) : Json :=
  place.foldl (fun inner layer => layer.fill inner) value

section Members

variable (before after : List (String × Json)) {key : String}

theorem lookup_member_of_ne {wanted : String} (other : wanted ≠ key) (value : Json) :
    (before ++ (key, value) :: after).lookup wanted = (before ++ after).lookup wanted := by
  induction before with
  | nil => simp [Assoc.lookup_cons, other]
  | cons member rest ih =>
      rw [List.cons_append, List.cons_append, Assoc.lookup_cons, Assoc.lookup_cons, ih]

theorem lookup_member (relation : Json → Json → Prop) (refl : ∀ value, relation value value)
    {first second : Json} (related : relation first second) (wanted : String) :
    Option.Rel relation ((before ++ (key, first) :: after).lookup wanted)
      ((before ++ (key, second) :: after).lookup wanted) := by
  have same : ∀ value? : Option Json, Option.Rel relation value? value? := by
    intro value?
    cases value? with
    | none => exact .none
    | some value => exact .some (refl value)
  induction before with
  | nil =>
      rw [List.nil_append, List.nil_append, Assoc.lookup_cons, Assoc.lookup_cons]
      split
      · exact .some related
      · exact same _
  | cons member rest ih =>
      rw [List.cons_append, List.cons_append, Assoc.lookup_cons, Assoc.lookup_cons]
      split
      · exact same _
      · exact ih

theorem nodesExcept_member (skip : List String) (value : Json) :
    nodesExcept skip (nodesOfMembers (before ++ (key, value) :: after)) =
      nodesExcept skip (nodesOfMembers before) ++
        ((if !Node.isPlain key && !skip.contains key then nodesOf value else []) ++
          nodesExcept skip (nodesOfMembers after)) := by
  simp only [nodesExcept_eq, List.filter_append, List.flatMap_append, List.filter_cons]
  split <;> simp

end Members

/-! ## The function itself -/

def parameterList (parameters : List Json) : Json :=
  .object [("type", .text groupTag), ("parameters", .list parameters)]

theorem nodesOf_parameterList (parameters : List Json) :
    nodesOf (parameterList parameters) = [other groupTag (nodesOf (.list parameters))] := by
  have parts : nodesExcept [] (nodesOfMembers (parameterList parameters).members) =
      nodesOf (.list parameters) := by
    rw [parameterList, members, nodesExcept_eq]
    exact List.flatMap_singleton _ _
  rw [← parts]
  rfl

theorem listedLength_parameterList (parameters : List Json) :
    (parameterList parameters).listedLength = (Json.list parameters).listedLength :=
  rfl

section Function

variable {before after : List (String × Json)}
  (tag : textField (before ++ after) "type" = functionTag)

include tag

/-- The tree of a function whose parameters are not read yet, without groups. -/
theorem ungrouped_function (parameters : Json) :
    (ofJson (.object (before ++ ("parameters", parameters) :: after))).ungrouped =
      .function (textField (before ++ after) "name")
        (Node.parameterCount (before ++ ("parameters", parameters) :: after))
        (textField (before ++ after) "visibility") (textField (before ++ after) "stateMutability")
        (((before ++ after).lookup "body").bind fun body => (fieldNode? body).map ungrouped)
        (dissolve ((nodesExcept ["body"] (nodesOfMembers before)).map ungrouped) ++
          (dissolve ((nodesOf parameters).map ungrouped) ++
            dissolve ((nodesExcept ["body"] (nodesOfMembers after)).map ungrouped))) := by
  have text : ∀ key, key ≠ "parameters" →
      textField (before ++ ("parameters", parameters) :: after) key =
        textField (before ++ after) key := by
    intro key other
    rw [textField, textField, lookup_member_of_ne before after other]
  have kind : NodeKind.ofTag functionTag = .function := by decide
  have kept : (!Node.isPlain "parameters" && !List.contains ["body"] "parameters") = true := by
    decide
  rw [ofJson, assemble]
  simp only [text "type" (by decide), tag, kind, ungrouped, ungroupedAll_eq, ungroupedOption_eq,
    text "name" (by decide), text "visibility" (by decide), text "stateMutability" (by decide),
    nodeField?_eq, lookup_member_of_ne before after (show "body" ≠ "parameters" by decide),
    nodesExcept_member, kept, if_true, List.map_append, dissolve_append, Option.map_bind]
  rfl

/-- A function is read alike in both layouts of its parameters. -/
theorem alike_layouts (parameters : List Json) :
    Alike ungrouped False ((Layer.member before "parameters" after).fill (parameterList parameters))
      ((Layer.member before "parameters" after).fill (.list parameters)) := by
  show Alike _ _ (.object (before ++ ("parameters", parameterList parameters) :: after))
    (.object (before ++ ("parameters", .list parameters) :: after))
  have count : Node.parameterCount (before ++ ("parameters", parameterList parameters) :: after) =
      Node.parameterCount (before ++ ("parameters", .list parameters) :: after) := by
    rw [Node.parameterCount_eq, Node.parameterCount_eq]
    exact elim_eq_of_rel (lookup_member before after
      (fun value other => value.listedLength = other.listedLength) (fun _ => rfl)
      (listedLength_parameterList parameters) _) id
  -- The group that the object adds is dissolved among the parts of the function.
  have group : dissolve ((nodesOf (parameterList parameters)).map ungrouped) =
      dissolve ((nodesOf (.list parameters)).map ungrouped) := by
    rw [nodesOf_parameterList, List.map_singleton, ungrouped, ungroupedAll_eq, dissolve_group]
  have node := ungrouped_function tag (parameterList parameters)
  rw [count, group, ← ungrouped_function tag (.list parameters)] at node
  have lookups : ∀ key, key ≠ "parameters" →
      (before ++ ("parameters", parameterList parameters) :: after).lookup key =
        (before ++ ("parameters", .list parameters) :: after).lookup key := by
    intro key other
    rw [lookup_member_of_ne before after other, lookup_member_of_ne before after other]
  have name : ownName? (.object (before ++ ("parameters", parameterList parameters) :: after)) =
      ownName? (.object (before ++ ("parameters", .list parameters) :: after)) := by
    simp only [ownName?, members, nameField?, lookups "name" (by decide),
      lookups "namePath" (by decide)]
  exact {
    nodes := congrArg (fun node => [node]) node
    field := congrArg some node
    text := rfl
    length := rfl
    name
    base := by simp only [baseName?_eq, name, get?, members, lookups "baseName" (by decide)]
    bases := rfl
    rootError := by simp only [rootError?, lookups "type" (by decide)]
    count := False.elim }

end Function

/-! ## What stands around it -/

variable {counted : Prop} {first second : Json}

/-- A list or an object is read alike if one value in it is. -/
theorem Layer.alike_fill (layer : Layer) (alike : Alike ungrouped counted first second)
    (parameters : layer.holdsParameters = true → counted) :
    Alike ungrouped True (layer.fill first) (layer.fill second) := by
  cases layer with
  | item before after =>
      have same : ∀ items, List.Forall₂ (Alike ungrouped counted) items items := fun items =>
        List.forall₂_same.2 fun item _ => Alike.refl item
      exact Alike.list respects_ungrouped (List.rel_append (same before) (.cons alike (same after)))
  | member before key after =>
      have lookups : ∀ wanted, Option.Rel (Alike ungrouped counted)
          ((before ++ (key, first) :: after).lookup wanted)
          ((before ++ (key, second) :: after).lookup wanted) :=
        lookup_member before after _ Alike.refl alike
      refine Alike.object (fun wanted _ => lookups wanted) respects_ungrouped ?_ fun skip => ?_
      · intro tag
        rw [Node.parameterCount_eq, Node.parameterCount_eq]
        -- A function counts what it has as parameters, so there the values have to count alike.
        by_cases here : key = "parameters"
        · subst here
          have holds : (member before "parameters" after).holdsParameters = true := by
            rw [textField, lookup_member_of_ne before after (by decide)] at tag
            simp [holdsParameters, textField, tag]
          have counts := parameters holds
          exact elim_eq_of_rel (lookups "parameters") fun alike => alike.count counts
        · rw [lookup_member_of_ne before after (Ne.symm here),
            lookup_member_of_ne before after (Ne.symm here)]
      · rw [nodesExcept_member, nodesExcept_member]
        split
        · simp only [List.map_append, alike.nodes]
        · rfl

/-- So is every value around it, at any place. -/
theorem alike_fill (place : List Layer) (alike : Alike ungrouped counted first second)
    (parameters : ∀ layer ∈ place.head?, layer.holdsParameters = true → counted) :
    ∃ around, Alike ungrouped around (fill place first) (fill place second) := by
  induction place generalizing counted first second with
  | nil => exact ⟨counted, alike⟩
  | cons layer place ih =>
      have inner := layer.alike_fill alike (parameters layer rfl)
      exact ih inner fun _ _ _ => trivial

end Json

/-- An analysis does not tell apart the two layouts of parameters. Take any function in any value,
at any place but the parameters of another function, and let an object list its parameters instead
of the function itself. The analysis has the same rows, but for their traces, and the same events;
recursion is no exception. As a document, the value is accepted or refused as before. -/
theorem parameter_layouts_agree (options : Options) (file : String) (function : Json.Layer)
    (parameters : List Json) (place : List Json.Layer)
    (holds : function.holdsParameters = true)
    (apart : ∀ layer ∈ place.head?, layer.holdsParameters = false) :
    let grouped := Json.fill place (function.fill (.parameterList parameters))
    let listed := Json.fill place (function.fill (.list parameters))
    (analyze options (Node.ofJson grouped)).withoutTraces =
        (analyze options (Node.ofJson listed)).withoutTraces ∧
      (Document.analyze options ⟨file, grouped⟩).map Analysis.withoutTraces =
        (Document.analyze options ⟨file, listed⟩).map Analysis.withoutTraces := by
  intro grouped listed
  obtain ⟨before, after, rfl, tag⟩ := Json.Layer.eq_member_of_holdsParameters holds
  obtain ⟨around, alike⟩ := Json.alike_fill place (Json.alike_layouts tag parameters)
    fun layer inner holds => absurd holds (by simp [apart layer inner])
  have analyses : ∀ root, (analyze options root).withoutTraces =
      (analyze options root.ungrouped).withoutTraces := fun root =>
    (analyze_ungrouped options root).symm
  constructor
  · calc (analyze options (Node.ofJson grouped)).withoutTraces
      _ = (analyze options (Node.ofJson grouped).ungrouped).withoutTraces := analyses _
      _ = (analyze options (Node.ofJson listed).ungrouped).withoutTraces := by rw [alike.tree]
      _ = (analyze options (Node.ofJson listed)).withoutTraces := (analyses _).symm
  · have through : ∀ value, (Document.analyze options ⟨file, value⟩).map Analysis.withoutTraces =
        ((Node.ofRoot value).map Node.ungrouped).map
          (Analysis.withoutTraces ∘ analyze options) := by
      intro value
      rw [Document.analyze]
      cases Node.ofRoot value with
      | error error => rfl
      | ok root => exact congrArg Except.ok (analyses root)
    rw [through, through, alike.root]

def Json.callOf (name : String) (arguments : List Json) : Json :=
  .object [("type", .text "FunctionCall"), ("arguments", .list arguments),
    ("expression", .object [("type", .text "Identifier"), ("name", .text name)])]

/-- A function of a clock, up to its parameters. -/
def clockTick : Json.Layer :=
  .member [("type", .text "FunctionDefinition"), ("name", .text "tick")] "parameters"
    [("body", .list [.callOf "tock" [.null]])]

/-- The clock around it, which ticks without parameters as well and tocks by ticking again. -/
def clockPlace : List Json.Layer :=
  let function (members : List (String × Json)) : Json :=
    .object (("type", .text "FunctionDefinition") :: members)
  [.item [function [("name", .text "tick"), ("body", .callOf "require" [])]]
      [function [("name", .text "tock"), ("parameters", .list [.null]),
        ("body", .list [.callOf "tick" [.callOf "tick" []]])]],
    .member [("type", .text "ContractDefinition"), ("name", .text "Clock")] "subNodes" [],
    .item [] [],
    .member [("type", .text "SourceUnit")] "children" []]

theorem clock_layouts_agree :
    let parameters := [Json.callOf "tock" [.null]]
    let grouped := Json.fill clockPlace (clockTick.fill (.parameterList parameters))
    let listed := Json.fill clockPlace (clockTick.fill (.list parameters))
    clockTick.holdsParameters = true ∧
    (∀ layer ∈ clockPlace.head?, layer.holdsParameters = false) ∧
    (analyze default (Node.ofJson grouped)).rows.map (·.depth) = [0, 3, 2] ∧
    (analyze default (Node.ofJson grouped)).withoutTraces =
        (analyze default (Node.ofJson listed)).withoutTraces ∧
      (Document.analyze default ⟨"Clock.json", grouped⟩).map Analysis.withoutTraces =
        (Document.analyze default ⟨"Clock.json", listed⟩).map Analysis.withoutTraces :=
  ⟨by decide, by decide, by decide +kernel,
    parameter_layouts_agree default "Clock.json" clockTick [.callOf "tock" [.null]] clockPlace
      (by decide) (by decide)⟩

end CallDepth
