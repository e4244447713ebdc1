import Mathlib.Logic.Function.Basic
import TagCall.Proofs.Json.RoundTrip
import TagCall.Proofs.Text.Bytes
import TagCall.Proofs.Tree.Grammar
import TagCall.Tree.Dump

/-!
# Dumps of trees

The JSON value of a tree is read back as the tree, whatever values stand in the place of its texts
(`Document.ofJson_toJson`). Of a tree of texts the value has texts only, so it is also read back
from its compact form (`Document.read_dump`).
-/

namespace TagCall

open Dump

/-! ### From a tree to a value and back -/

lemma Attribute.ofJson_toJson (a : Attribute Json) : Attribute.ofJson a.toJson = .ok a := rfl

lemma Attribute.allOfJson_toJson (as : List (Attribute Json)) :
    Attribute.allOfJson (.array (as.map Attribute.toJson)) = .ok as := by
  rw [Attribute.allOfJson]
  induction as with
  | nil => rfl
  | cons a as ih =>
    rw [List.map_cons, List.mapM_cons, Attribute.ofJson_toJson, ih]
    rfl

lemma Node.ofJson_text (content : Json) :
    Node.ofJson (Node.toJson (.text content)) = .ok (.text content) := by
  rw [Node.toJson, Node.ofJson]
  rfl

lemma Node.ofJson_comment (content : Json) :
    Node.ofJson (Node.toJson (.comment content)) = .ok (.comment content) := by
  rw [Node.toJson, Node.ofJson]
  rfl

/-- The fields of a dumped element. -/
def Node.elementFields (tag : Json) (attributes : List (Attribute Json))
    (children : List (Node Json)) : List (String × Json) :=
  [("_type", .text "element"), ("tag_name", tag),
    ("attributes", .array (attributes.map Attribute.toJson)),
    ("children", .array (Node.allToJson children))]

section Element

variable (tag : Json) (attributes : List (Attribute Json)) (children : List (Node Json))

lemma Node.toJson_element :
    Node.toJson (.element tag attributes children) =
      .object (Node.elementFields tag attributes children) := by
  rw [Node.toJson, Node.elementFields]

lemma Node.field?_children :
    Json.field? "children" (Node.elementFields tag attributes children) =
      some (.array (Node.allToJson children)) := rfl

lemma Node.ofJson_element :
    Node.ofJson (Node.toJson (.element tag attributes children)) =
      (Node.allOfJson (Node.allToJson children)).map (Node.element tag attributes) := by
  rw [Node.toJson_element, Node.ofJson]
  have hchildren := Node.field?_children tag attributes children
  have hkind : kindOf (Node.elementFields tag attributes children) = .text "element" := rfl
  have htag : field "tag_name" (Node.elementFields tag attributes children) = .ok tag := rfl
  have hattributes : field "attributes" (Node.elementFields tag attributes children) =
      .ok (.array (attributes.map Attribute.toJson)) := rfl
  simp only [hkind, htag, hattributes, Attribute.allOfJson_toJson, bind, Except.bind]
  split
  · rename_i inner hinner
    rw [hchildren] at hinner
    obtain rfl := Option.some.inj hinner
    rw [Node.childrenOfJson]
    rfl
  · rename_i hnone
    rw [hchildren] at hnone
    cases hnone

end Element

lemma Node.allOfJson_toJson (ns : List (Node Json)) :
    Node.allOfJson (Node.allToJson ns) = .ok ns := by
  induction ns using Node.siblings_induction with
  | nil => rw [Node.allToJson, Node.allOfJson]
  | text content rest ih =>
    rw [Node.allToJson, Node.allOfJson, Node.ofJson_text, ih]
    rfl
  | comment content rest ih =>
    rw [Node.allToJson, Node.allOfJson, Node.ofJson_comment, ih]
    rfl
  | element tag attributes children rest ihchildren ih =>
    rw [Node.allToJson, Node.allOfJson, Node.ofJson_element, ihchildren, ih]
    rfl

lemma Document.ofJson_toJson (d : Document Json) : Document.ofJson d.toJson = .ok d := by
  have hnodes : Node.childrenOfJson (.array (Node.allToJson d.nodes)) = .ok d.nodes := by
    rw [Node.childrenOfJson, Node.allOfJson_toJson]
  have hdocument : Document.ofJson d.toJson =
      (Node.childrenOfJson (.array (Node.allToJson d.nodes))).map Document.mk := rfl
  rw [hdocument, hnodes]
  rfl

/-! ### Counting -/

namespace Dump

/-- What the objects listed in a field count. -/
def countUnder (key : String) (fields : List (String × Json)) : Except Error Nat :=
  match Json.field? key fields with
  | some inner => countField inner
  | none => .ok 0

lemma count_object (fields : List (String × Json)) :
    count (.object fields) = do
      let ns ← countUnder "nodes" fields
      let cs ← countUnder "children" fields
      return 1 + ns + cs := by
  rw [count, countUnder, countUnder]
  split <;> split <;> simp_all

lemma countUnder_of_array {key : String} {fields : List (String × Json)} {items : List Json}
    (h : Json.field? key fields = some (.array items)) :
    countUnder key fields = countItems items := by
  rw [countUnder, h]
  exact countField.eq_1 items

lemma count_text (content : Json) : count (Node.toJson (.text content)) = .ok 1 := by
  rw [Node.toJson, count_object]
  rfl

lemma count_comment (content : Json) : count (Node.toJson (.comment content)) = .ok 1 := by
  rw [Node.toJson, count_object]
  rfl

lemma count_element (tag : Json) (attributes : List (Attribute Json))
    (children : List (Node Json)) :
    count (Node.toJson (.element tag attributes children)) =
      (countItems (Node.allToJson children)).map (1 + ·) := by
  have hnodes : countUnder "nodes" (Node.elementFields tag attributes children) = .ok 0 := rfl
  have hchildren := countUnder_of_array (Node.field?_children tag attributes children)
  rw [Node.toJson_element, count_object, hnodes, hchildren]
  cases countItems (Node.allToJson children) with
  | error e => rfl
  | ok n => rfl

lemma countItems_cons {n : Node Json} {size : Nat} (h : count n.toJson = .ok size)
    (rest : List Json) : countItems (n.toJson :: rest) = (countItems rest).map (size + ·) := by
  cases n with
  | text content | comment content | element tag attributes children =>
    rw [Node.toJson] at h ⊢
    rw [countItems, h]
    rfl

lemma countItems_allToJson (ns : List (Node Json)) :
    countItems (Node.allToJson ns) = .ok (Node.totalSize ns) := by
  induction ns using Node.siblings_induction with
  | nil => rw [Node.allToJson, countItems, Node.totalSize]
  | text content rest ih =>
    rw [Node.allToJson, countItems_cons (count_text content), ih]
    rfl
  | comment content rest ih =>
    rw [Node.allToJson, countItems_cons (count_comment content), ih]
    rfl
  | element tag attributes children rest ihchildren ih =>
    have hfirst : count (Node.toJson (.element tag attributes children)) =
        .ok (1 + Node.totalSize children) := by
      rw [count_element, ihchildren]
      rfl
    rw [Node.allToJson, countItems_cons hfirst, ih, Node.totalSize, Node.size,
      Nat.add_comm _ 1]
    rfl

lemma count_toJson (d : Document Json) : count d.toJson = .ok (1 + Node.totalSize d.nodes) := by
  have hnodes : countUnder "nodes" [("_type", .text "document"),
      ("nodes", .array (Node.allToJson d.nodes))] = .ok (Node.totalSize d.nodes) := by
    rw [countUnder_of_array rfl, countItems_allToJson]
  rw [Document.toJson, count_object, hnodes]
  rfl

end Dump

/-! ### Trees of texts -/

lemma Attribute.isTextual_toJson (a : Attribute) : (a.map Json.text).toJson.IsTextual := by
  refine .object (by simp) ?_
  simp only [List.forall_mem_cons]
  exact ⟨.text _, .text _, by simp⟩

lemma Node.isTextual_toJson (ns : List Node) :
    ∀ v ∈ Node.allToJson (Node.mapAll Json.text ns), v.IsTextual := by
  induction ns using Node.siblings_induction with
  | nil => simp [Node.mapAll, Node.allToJson]
  | text content rest ih | comment content rest ih =>
    rw [Node.mapAll, Node.map, Node.allToJson, Node.toJson, List.forall_mem_cons]
    refine ⟨.object (by simp) ?_, ih⟩
    simp only [List.forall_mem_cons]
    exact ⟨.text _, .text _, by simp⟩
  | element tag attributes children rest ihchildren ih =>
    rw [Node.mapAll, Node.map, Node.allToJson, Node.toJson, List.forall_mem_cons]
    refine ⟨.object (by simp) ?_, ih⟩
    have hattributes : ∀ v ∈ (attributes.map (Attribute.map Json.text)).map Attribute.toJson,
        v.IsTextual := by
      simp only [List.forall_mem_map]
      exact fun a _ => Attribute.isTextual_toJson a
    simp only [List.forall_mem_cons]
    exact ⟨.text _, .text _, .array hattributes, .array ihchildren, by simp⟩

lemma Document.isTextual_toJson (d : Document) : d.loose.toJson.IsTextual := by
  refine .object (by simp) ?_
  simp only [List.forall_mem_cons]
  exact ⟨.text _, .array (Node.isTextual_toJson d.nodes), by simp⟩

lemma Node.totalSize_mapAll {α β : Type} (f : α → β) (ns : List (Node α)) :
    Node.totalSize (Node.mapAll f ns) = Node.totalSize ns := by
  induction ns using Node.siblings_induction with
  | nil => rfl
  | text content rest ih | comment content rest ih =>
    rw [Node.mapAll, Node.totalSize, Node.totalSize, ih]
    rfl
  | element tag attributes children rest ihchildren ih =>
    rw [Node.mapAll, Node.map, Node.totalSize, Node.totalSize, Node.size, Node.size, ih, ihchildren]

lemma Node.mapAll_leftInverse {α β : Type} {f : α → β} {g : β → α}
    (h : Function.LeftInverse g f) (ns : List (Node α)) :
    Node.mapAll g (Node.mapAll f ns) = ns := by
  have hattribute (a : Attribute α) : (a.map f).map g = a := by
    rw [Attribute.map, Attribute.map, h, h]
  induction ns using Node.siblings_induction with
  | nil => rfl
  | text content rest ih | comment content rest ih =>
    rw [Node.mapAll, Node.mapAll, Node.map, Node.map, h, ih]
  | element tag attributes children rest ihchildren ih =>
    rw [Node.mapAll, Node.mapAll, Node.map, Node.map, h, ih, ihchildren, List.map_map]
    simp [Function.comp_def, hattribute]

lemma Document.loose_injective : Function.Injective Document.loose := by
  intro d e h
  have htext : Function.Injective Json.text := fun a b hab => by cases hab; rfl
  obtain ⟨g, hg⟩ := htext.hasLeftInverse
  have hback (d : Document) : d.loose.map g = d :=
    congrArg Document.mk (Node.mapAll_leftInverse hg d.nodes)
  rw [← hback d, h, hback e]

lemma Document.read_dump (d : Document) : Json.read d.dump = .ok d.loose.toJson :=
  Json.read_compact d.isTextual_toJson

lemma Document.dump_injective : Function.Injective Document.dump := by
  intro d e h
  have hread := d.read_dump
  rw [h, e.read_dump] at hread
  have hvalue := congrArg Document.ofJson (Except.ok.inj hread)
  rw [Document.ofJson_toJson, Document.ofJson_toJson] at hvalue
  exact Document.loose_injective (Except.ok.inj hvalue).symm

/-- A dump is read back as the tree it was made of, from its bytes as well, and counts the document
and its nodes at all depths. Different trees have different dumps. -/
theorem dump_is_lossless (d : Document) :
    (∃ v, Json.read d.dump = .ok v ∧
      (String.fromUTF8? d.dump.toUTF8).map Json.read = some (.ok v) ∧
      Document.ofJson v = .ok d.loose ∧ Dump.count v = .ok (1 + Node.totalSize d.nodes)) ∧
    ∀ e : Document, (d.loose = e.loose ↔ d = e) ∧ (d.dump = e.dump ↔ d = e) := by
  have hread := d.read_dump
  have hcount : Dump.count d.loose.toJson = .ok (1 + Node.totalSize d.nodes) := by
    rw [Dump.count_toJson, Document.loose, Document.map, Node.totalSize_mapAll]
  refine ⟨⟨d.loose.toJson, hread, ?_, Document.ofJson_toJson d.loose, hcount⟩, fun e => ⟨?_, ?_⟩⟩
  · rw [Text.fromUTF8?_toUTF8, Option.map_some, hread]
  · exact Document.loose_injective.eq_iff
  · exact Document.dump_injective.eq_iff

end TagCall
