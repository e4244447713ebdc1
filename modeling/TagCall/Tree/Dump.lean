import TagCall.Json.Write
import TagCall.Setting.Basic
import TagCall.Tree.Basic

/-!
Trees as JSON and back. A dumped node names its kind in the field `_type`; fields that its kind does
not have are ignored when it is read. What stands in the place of a text is not judged: a tree that
is read may have any JSON value there.
-/

namespace TagCall

def Attribute.toJson (a : Attribute Json) : Json :=
  .object [("key", a.key), ("value", a.value)]

mutual

def Node.toJson : Node Json → Json
  | .element tag attributes children =>
    .object [("_type", .text "element"), ("tag_name", tag),
      ("attributes", .array (attributes.map Attribute.toJson)),
      ("children", .array (Node.allToJson children))]
  | .text content => .object [("_type", .text "text"), ("content", content)]
  | .comment content => .object [("_type", .text "comment"), ("content", content)]

def Node.allToJson : List (Node Json) → List Json
  | [] => []
  | n :: rest => n.toJson :: Node.allToJson rest

end

def Document.toJson (d : Document Json) : Json :=
  .object [("_type", .text "document"), ("nodes", .array (Node.allToJson d.nodes))]

/-- A document of texts as one of JSON values. -/
def Document.loose (d : Document) : Document Json :=
  d.map Json.text

/-- A document as compact JSON. -/
def Document.dump (d : Document) : String :=
  d.loose.toJson.compact

namespace Dump

/-- Why a JSON value is no dump. -/
inductive Error where
  | wrongDocument (found : Json)
  | unknownNode (found : Json)
  | missing (field : String)
  /-- An object is needed to look up a kind. -/
  | notObject
  /-- A value of a type that does not fit its place. -/
  | wrongType

def Error.message : Error → String
  | wrongDocument found => "Expected a document, got " ++ (Setting.ofJson found).describe
  | unknownNode found => "Unknown node type " ++ (Setting.ofJson found).describe
  | missing field => Text.quoted field
  | notObject => "not an object"
  | wrongType => "wrong type"

/-- The field that names the kind; null if there is none. -/
def kindOf (fields : List (String × Json)) : Json :=
  (Json.field? "_type" fields).getD .null

def field (key : String) (fields : List (String × Json)) : Except Error Json :=
  match Json.field? key fields with
  | some v => .ok v
  | none => .error (.missing key)

theorem sizeOf_field? {key : String} {fields : List (String × Json)} {v : Json}
    (h : Json.field? key fields = some v) : sizeOf v < sizeOf fields := by
  simp only [Json.field?, Option.map_eq_some_iff] at h
  obtain ⟨⟨k, w⟩, hf, rfl⟩ := h
  have := List.sizeOf_lt_of_mem (List.mem_of_find?_eq_some hf)
  simp only [Prod.mk.sizeOf_spec] at this
  simp only
  omega

/-- A text or an object without content stands for the empty list. -/
def noItems {α : Type} (error : Error) : Json → Except Error (List α)
  | .text s => if s = "" then .ok [] else .error error
  | .object fields => if fields.isEmpty then .ok [] else .error error
  | _ => .error .wrongType

end Dump

open Dump in
def Attribute.ofJson : Json → Except Dump.Error (Attribute Json)
  | .object fields => do
    let key ← field "key" fields
    let value ← field "value" fields
    return ⟨key, value⟩
  | _ => .error .wrongType

open Dump in
def Attribute.allOfJson : Json → Except Dump.Error (List (Attribute Json))
  | .array items => items.mapM Attribute.ofJson
  | v => noItems .wrongType v

open Dump

mutual

/-- The node that a value dumps. An element's tag is read first, then its attributes, then its
children. -/
def Node.ofJson (v : Json) : Except Dump.Error (Node Json) :=
  match v with
  | .object fields =>
    match kindOf fields with
    | .text "text" => (field "content" fields).map Node.text
    | .text "comment" => (field "content" fields).map Node.comment
    | .text "element" => do
      let tag ← field "tag_name" fields
      let attributes ← (field "attributes" fields).bind Attribute.allOfJson
      match _h : Json.field? "children" fields with
      | some inner =>
        have := sizeOf_field? _h
        let children ← Node.childrenOfJson inner
        return .element tag attributes children
      | none => .error (.missing "children")
    | other => .error (.unknownNode other)
  | _ => .error .notObject
termination_by sizeOf v
decreasing_by
  simp only [Json.object.sizeOf_spec]
  omega

/-- The value of a field that lists nodes. -/
def Node.childrenOfJson (v : Json) : Except Dump.Error (List (Node Json)) :=
  match v with
  | .array items => Node.allOfJson items
  | v => noItems .notObject v
termination_by sizeOf v

def Node.allOfJson (items : List Json) : Except Dump.Error (List (Node Json)) :=
  match items with
  | [] => .ok []
  | v :: rest => do
    let first ← Node.ofJson v
    let more ← Node.allOfJson rest
    return first :: more
termination_by sizeOf items

end

/-- The document that a value dumps. -/
def Document.ofJson : Json → Except Dump.Error (Document Json)
  | .object fields =>
    match kindOf fields with
    | .text "document" => do
      let inner ← field "nodes" fields
      return ⟨← Node.childrenOfJson inner⟩
    | other => .error (.wrongDocument other)
  | _ => .error .notObject

namespace Dump

mutual

/-- One for an object, and as many for each object that its fields `nodes` and `children` list, at
any depth. Fails where one of these fields can not be gone through. -/
def count (v : Json) : Except Error Nat :=
  match v with
  | .object fields => do
    let ns ← match _h : Json.field? "nodes" fields with
      | some inner =>
        have := sizeOf_field? _h
        countField inner
      | none => .ok 0
    let cs ← match _h : Json.field? "children" fields with
      | some inner =>
        have := sizeOf_field? _h
        countField inner
      | none => .ok 0
    return 1 + ns + cs
  | _ => .error .notObject
termination_by sizeOf v
decreasing_by
  all_goals
    simp only [Json.object.sizeOf_spec]
    omega

def countField (v : Json) : Except Error Nat :=
  match v with
  | .array items => countItems items
  | .text _ | .object _ => .ok 0
  | _ => .error .wrongType
termination_by sizeOf v

def countItems (items : List Json) : Except Error Nat :=
  match items with
  | [] => .ok 0
  | .object fields :: rest => do
    let first ← count (.object fields)
    let more ← countItems rest
    return first + more
  | _ :: rest => countItems rest
termination_by sizeOf items

end

end Dump

end TagCall
