import Mathlib.Logic.Relation
import TagCall.Proofs.Token.Lexeme
import TagCall.Proofs.Tree.Dump

/-!
# Which values are dumps of documents

A value is read exactly if it is a document with nodes and every node that is reached from it has a
known kind and the fields of its kind (`documentOffences_eq_nil_iff`). What is read is the value
without the fields that its kinds do not have (`toJson_of_document`). Where something is missing or
unknown, the first offence is told in the order of reading (`failsFirst_document`).
-/

namespace TagCall

namespace Dump

variable {fields : List (String × Json)}

/-! ### Offences and what is left of a value -/

/-- That a field is missing, or the offences in its value. -/
def fieldOffences (key : String) (inside : Json → List Error) (fields : List (String × Json)) :
    List Error :=
  match Json.field? key fields with
  | some v => inside v
  | none => [.missing key]

def attributeOffences : Json → List Error
  | .object fields =>
    fieldOffences "key" (fun _ => []) fields ++ fieldOffences "value" (fun _ => []) fields
  | _ => []

def attributesOffences : Json → List Error
  | .array items => items.flatMap attributeOffences
  | _ => []

mutual

/-- The offences in a node and in the nodes below it, in the order in which it is read. -/
def nodeOffences : Json → List Error
  | .object fields =>
    match kindOf fields with
    | .text "text" | .text "comment" => fieldOffences "content" (fun _ => []) fields
    | .text "element" =>
      fieldOffences "tag_name" (fun _ => []) fields ++
        (fieldOffences "attributes" attributesOffences fields ++ childrenOffences fields)
    | other => [.unknownNode other]
  | _ => []

-- The field is searched for by recursion, to go down into its value (`childrenOffences_eq`).
def childrenOffences : List (String × Json) → List Error
  | [] => [.missing "children"]
  | (key, v) :: rest => if key = "children" then listOffences v else childrenOffences rest

def listOffences : Json → List Error
  | .array items => allOffences items
  | _ => []

def allOffences : List Json → List Error
  | [] => []
  | v :: rest => nodeOffences v ++ allOffences rest

end

def documentOffences (fields : List (String × Json)) : List Error :=
  match kindOf fields with
  | .text "document" => fieldOffences "nodes" listOffences fields
  | other => [.wrongDocument other]

/-- The fields of the given names, as far as they are there. They come in the order of the names,
which is the order of a dump. -/
def pick (keys : List String) (fields : List (String × Json)) : List (String × Json) :=
  keys.filterMap fun key => (Json.field? key fields).map (key, ·)

/-- The fields of a kind. -/
def keysOf : Json → List String
  | .text "document" => ["_type", "nodes"]
  | .text "element" => ["_type", "tag_name", "attributes", "children"]
  | _ => ["_type", "content"]

def prunedAttribute : Json → Json
  | .object fields => .object (pick ["key", "value"] fields)
  | v => v

def prunedAttributes : Json → Json
  | .array items => .array (items.map prunedAttribute)
  | v => v

mutual

/-- A node or a document without the fields that its kind does not have, at every level. -/
def pruned : Json → Json
  | .object fields => .object (pick (keysOf (kindOf fields)) (prunedFields fields))
  | v => v

def prunedFields : List (String × Json) → List (String × Json)
  | [] => []
  | (key, v) :: rest =>
    let value :=
      if key = "attributes" then prunedAttributes v
      else if key = "nodes" ∨ key = "children" then prunedList v
      else v
    (key, value) :: prunedFields rest

def prunedList : Json → Json
  | .array items => .array (allPruned items)
  | v => v

def allPruned : List Json → List Json
  | [] => []
  | v :: rest => pruned v :: allPruned rest

end

/-- An object whose attributes and nodes, where there are any, are arrays of objects, with the nodes
of this shape again. -/
inductive IsShaped : Json → Prop where
  | object {fields : List (String × Json)} :
    (∀ v, Json.field? "attributes" fields = some v →
      ∃ items, v = .array items ∧ ∀ item ∈ items, ∃ inner, item = .object inner) →
    (∀ key ∈ ["nodes", "children"], ∀ v, Json.field? key fields = some v →
      ∃ items, v = .array items) →
    (∀ key ∈ ["nodes", "children"], ∀ items, Json.field? key fields = some (.array items) →
      ∀ item ∈ items, IsShaped item) →
    IsShaped (.object fields)

/-! ### Reading fails first where the first offence is -/

/-- A reader succeeds where there are no offences, and fails with the first of them otherwise. -/
def FailsFirst {α : Type} (r : Except Error α) : List Error → Prop
  | [] => ∃ a, r = .ok a
  | e :: _ => r = .error e

section

variable {α β : Type}

lemma FailsFirst.bind {r : Except Error α} {f : α → Except Error β} {es es' : List Error}
    (h : FailsFirst r es) (hf : ∀ a, r = .ok a → FailsFirst (f a) es') :
    FailsFirst (r >>= f) (es ++ es') := by
  cases es with
  | nil =>
    obtain ⟨a, rfl⟩ := h
    exact hf a rfl
  | cons e es =>
    obtain rfl : r = .error e := h
    rfl

lemma FailsFirst.map {r : Except Error α} {es : List Error} (h : FailsFirst r es) (f : α → β) :
    FailsFirst (r.map f) es := by
  cases es with
  | nil =>
    obtain ⟨a, rfl⟩ := h
    exact ⟨f a, rfl⟩
  | cons e es =>
    obtain rfl : r = .error e := h
    rfl

lemma FailsFirst.error_iff {r : Except Error α} {es : List Error}
    (h : FailsFirst r es) (e : Error) : r = .error e ↔ es.head? = some e := by
  cases es with
  | nil =>
    obtain ⟨a, rfl⟩ := h
    simp
  | cons first es =>
    obtain rfl : r = .error first := h
    simp

lemma FailsFirst.ok_iff {r : Except Error α} {es : List Error}
    (h : FailsFirst r es) : (∃ a, r = .ok a) ↔ es = [] := by
  cases es with
  | nil =>
    obtain ⟨a, rfl⟩ := h
    simp
  | cons first es =>
    obtain rfl : r = .error first := h
    simp

lemma failsFirst_field {key : String} {inside : Json → List Error} {f : Json → Except Error α}
    (h : ∀ v, Json.field? key fields = some v → FailsFirst (f v) (inside v)) :
    FailsFirst (field key fields >>= f) (fieldOffences key inside fields) := by
  unfold field fieldOffences
  cases hv : Json.field? key fields with
  | none => rfl
  | some v => exact h v hv

lemma failsFirst_plainField (key : String) (fields : List (String × Json)) :
    FailsFirst (field key fields) (fieldOffences key (fun _ => []) fields) := by
  unfold field fieldOffences
  cases Json.field? key fields with
  | none => rfl
  | some v => exact ⟨v, rfl⟩

end

lemma failsFirst_attributes {items : List Json}
    (h : ∀ item ∈ items, ∃ inner, item = .object inner) :
    FailsFirst (items.mapM Attribute.ofJson) (items.flatMap attributeOffences) := by
  induction items with
  | nil => exact ⟨[], rfl⟩
  | cons item items ih =>
    obtain ⟨⟨inner, rfl⟩, hitems⟩ := List.forall_mem_cons.1 h
    have hfirst : FailsFirst (Attribute.ofJson (.object inner))
        (attributeOffences (.object inner)) := by
      refine (failsFirst_plainField "key" inner).bind fun key _ => ?_
      exact (failsFirst_plainField "value" inner).map (Attribute.mk key)
    rw [List.mapM_cons, List.flatMap_cons]
    exact hfirst.bind fun a _ => (ih hitems).map (a :: ·)

/-! ### Nodes and documents by their kind -/

/-- A kind that no node is of. -/
def IsUnknown (kind : Json) : Prop :=
  kind ≠ .text "text" ∧ kind ≠ .text "comment" ∧ kind ≠ .text "element"

lemma kind_cases (kind : Json) :
    (kind = .text "text" ∨ kind = .text "comment") ∨ kind = .text "element" ∨ IsUnknown kind := by
  unfold IsUnknown
  tauto

lemma nodeOffences_of_content
    (h : kindOf fields = .text "text" ∨ kindOf fields = .text "comment") :
    nodeOffences (.object fields) = fieldOffences "content" (fun _ => []) fields := by
  rw [nodeOffences]
  obtain h | h := h
  · simp only [h]
  · simp only [h]

lemma childrenOffences_eq (fields : List (String × Json)) :
    childrenOffences fields = fieldOffences "children" listOffences fields := by
  induction fields with
  | nil => rfl
  | cons f rest ih =>
    obtain ⟨key, v⟩ := f
    rw [childrenOffences, fieldOffences, Json.field?, List.find?_cons]
    by_cases hkey : key = "children"
    · simp [hkey]
    · rw [if_neg hkey, ih, fieldOffences, Json.field?]
      simp [hkey]

lemma nodeOffences_of_element (h : kindOf fields = .text "element") :
    nodeOffences (.object fields) =
      fieldOffences "tag_name" (fun _ => []) fields ++
        (fieldOffences "attributes" attributesOffences fields ++
          fieldOffences "children" listOffences fields) := by
  rw [nodeOffences, ← childrenOffences_eq]
  simp only [h]

lemma nodeOffences_of_unknown (h : IsUnknown (kindOf fields)) :
    nodeOffences (.object fields) = [.unknownNode (kindOf fields)] := by
  rw [nodeOffences]
  obtain ⟨htext, hcomment, helement⟩ := h
  split <;> simp_all

lemma ofJson_of_text (h : kindOf fields = .text "text") :
    Node.ofJson (.object fields) = (field "content" fields).map Node.text := by
  rw [Node.ofJson]
  simp only [h]

lemma ofJson_of_comment (h : kindOf fields = .text "comment") :
    Node.ofJson (.object fields) = (field "content" fields).map Node.comment := by
  rw [Node.ofJson]
  simp only [h]

lemma ofJson_of_element (h : kindOf fields = .text "element") :
    Node.ofJson (.object fields) =
      field "tag_name" fields >>= fun tag =>
        (field "attributes" fields >>= Attribute.allOfJson) >>= fun attributes =>
          (field "children" fields >>= Node.childrenOfJson).map (Node.element tag attributes) := by
  rw [Node.ofJson]
  simp only [h]
  refine bind_congr fun tag => bind_congr fun attributes => ?_
  split
  · rename_i inner hinner
    rw [field, hinner]
    exact bind_pure_comp (Node.element tag attributes) (Node.childrenOfJson inner)
  · rename_i hnone
    rw [field, hnone]
    rfl

lemma ofJson_of_unknown (h : IsUnknown (kindOf fields)) :
    Node.ofJson (.object fields) = .error (.unknownNode (kindOf fields)) := by
  rw [Node.ofJson]
  obtain ⟨htext, hcomment, helement⟩ := h
  split <;> simp_all

lemma documentOffences_of_document (h : kindOf fields = .text "document") :
    documentOffences fields = fieldOffences "nodes" listOffences fields := by
  rw [documentOffences]
  simp only [h]

lemma documentOffences_of_other (h : kindOf fields ≠ .text "document") :
    documentOffences fields = [.wrongDocument (kindOf fields)] := by
  rw [documentOffences]
  split <;> simp_all

lemma ofJson_of_document (h : kindOf fields = .text "document") :
    Document.ofJson (.object fields) =
      (field "nodes" fields >>= Node.childrenOfJson).map Document.mk := by
  rw [Document.ofJson]
  simp only [h]
  cases field "nodes" fields with
  | error e => rfl
  | ok inner => exact bind_pure_comp Document.mk (Node.childrenOfJson inner)

lemma ofJson_of_other (h : kindOf fields ≠ .text "document") :
    Document.ofJson (.object fields) = .error (.wrongDocument (kindOf fields)) := by
  rw [Document.ofJson]
  split <;> simp_all

/-! ### Values of the right shape -/

lemma failsFirst_all {items : List Json}
    (h : ∀ item ∈ items, FailsFirst (Node.ofJson item) (nodeOffences item)) :
    FailsFirst (Node.allOfJson items) (allOffences items) := by
  induction items with
  | nil =>
    rw [Node.allOfJson]
    exact ⟨[], rfl⟩
  | cons item items ih =>
    obtain ⟨hfirst, hmore⟩ := List.forall_mem_cons.1 h
    rw [Node.allOfJson, allOffences]
    exact hfirst.bind fun n _ => (ih hmore).map (n :: ·)

lemma failsFirst_node {v : Json} (h : IsShaped v) :
    FailsFirst (Node.ofJson v) (nodeOffences v) := by
  induction h with
  | @object fields hattributes hlists _ ih =>
    obtain (hkind | hkind) | hkind | hkind := kind_cases (kindOf fields)
    · rw [ofJson_of_text hkind, nodeOffences_of_content (.inl hkind)]
      exact (failsFirst_plainField "content" fields).map Node.text
    · rw [ofJson_of_comment hkind, nodeOffences_of_content (.inr hkind)]
      exact (failsFirst_plainField "content" fields).map Node.comment
    · rw [ofJson_of_element hkind, nodeOffences_of_element hkind]
      refine (failsFirst_plainField "tag_name" fields).bind fun tag _ => ?_
      refine (failsFirst_field fun v hv => ?_).bind fun attributes _ => ?_
      · obtain ⟨items, rfl, hitems⟩ := hattributes v hv
        exact failsFirst_attributes hitems
      · refine (failsFirst_field fun v hv => ?_).map (Node.element tag attributes)
        obtain ⟨items, rfl⟩ := hlists "children" (by simp) v hv
        rw [Node.childrenOfJson, listOffences]
        exact failsFirst_all (ih "children" (by simp) items hv)
    · rw [ofJson_of_unknown hkind, nodeOffences_of_unknown hkind]
      rfl

lemma failsFirst_document (h : IsShaped (.object fields)) :
    FailsFirst (Document.ofJson (.object fields)) (documentOffences fields) := by
  obtain ⟨-, hlists, hitems⟩ := h
  by_cases hkind : kindOf fields = .text "document"
  · rw [ofJson_of_document hkind, documentOffences_of_document hkind]
    refine (failsFirst_field fun v hv => ?_).map Document.mk
    obtain ⟨items, rfl⟩ := hlists "nodes" (by simp) v hv
    rw [Node.childrenOfJson, listOffences]
    exact failsFirst_all fun item hitem =>
      failsFirst_node (hitems "nodes" (by simp) items hv item hitem)
  · rw [ofJson_of_other hkind, documentOffences_of_other hkind]
    rfl

/-! ### Values without offences -/

def HasField (key : String) (fields : List (String × Json)) : Prop :=
  ∃ v, Json.field? key fields = some v

/-- A node of a known kind with all fields of its kind. Its attributes have a key and a value. -/
def IsWhole : Json → Prop
  | .object fields =>
    (kindOf fields = .text "text" ∨ kindOf fields = .text "comment") ∧ HasField "content" fields ∨
      kindOf fields = .text "element" ∧ HasField "tag_name" fields ∧ HasField "children" fields ∧
        ∃ items, Json.field? "attributes" fields = some (.array items) ∧
          ∀ item ∈ items, ∃ inner, item = .object inner ∧ HasField "key" inner ∧
            HasField "value" inner
  | _ => False

def IsChild (v child : Json) : Prop :=
  ∃ fields items, v = .object fields ∧ kindOf fields = .text "element" ∧
    Json.field? "children" fields = some (.array items) ∧ child ∈ items

/-- A node of a document: one that it lists, or one that is reached from there by children. -/
def IsReached (fields : List (String × Json)) (v : Json) : Prop :=
  ∃ items, Json.field? "nodes" fields = some (.array items) ∧
    ∃ top ∈ items, Relation.ReflTransGen IsChild top v

lemma fieldOffences_eq_nil_iff {key : String} {inside : Json → List Error} :
    fieldOffences key inside fields = [] ↔
      ∃ v, Json.field? key fields = some v ∧ inside v = [] := by
  unfold fieldOffences
  cases Json.field? key fields <;> simp

lemma plainOffences_eq_nil_iff {key : String} :
    fieldOffences key (fun _ => []) fields = [] ↔ HasField key fields := by
  simp [fieldOffences_eq_nil_iff, HasField]

lemma allOffences_eq_nil_iff {items : List Json} :
    allOffences items = [] ↔ ∀ item ∈ items, nodeOffences item = [] := by
  induction items with
  | nil => simp [allOffences]
  | cons item items ih => rw [allOffences, List.append_eq_nil_iff, ih, List.forall_mem_cons]

lemma IsShaped.child {v child : Json} (h : IsShaped v) (hchild : IsChild v child) :
    IsShaped child := by
  obtain ⟨fields, items, rfl, -, hitems, hmem⟩ := hchild
  obtain ⟨-, -, hlist⟩ := h
  exact hlist "children" (by simp) items hitems child hmem

lemma attributesOffences_eq_nil_iff {items : List Json}
    (h : ∀ item ∈ items, ∃ inner, item = .object inner) :
    attributesOffences (.array items) = [] ↔
      ∀ item ∈ items, ∃ inner, item = .object inner ∧ HasField "key" inner ∧
        HasField "value" inner := by
  rw [attributesOffences, List.flatMap_eq_nil_iff]
  refine forall₂_congr fun item hitem => ?_
  obtain ⟨inner, rfl⟩ := h item hitem
  rw [attributeOffences, List.append_eq_nil_iff, plainOffences_eq_nil_iff, plainOffences_eq_nil_iff]
  simp

lemma isWhole_of_content (h : kindOf fields = .text "text" ∨ kindOf fields = .text "comment") :
    IsWhole (.object fields) ↔ HasField "content" fields := by
  have helement : kindOf fields ≠ .text "element" := by
    intro helement
    simp [helement] at h
  simp [IsWhole, h, helement]

lemma isWhole_of_element (h : kindOf fields = .text "element") :
    IsWhole (.object fields) ↔
      HasField "tag_name" fields ∧ HasField "children" fields ∧
        ∃ items, Json.field? "attributes" fields = some (.array items) ∧
          ∀ item ∈ items, ∃ inner, item = .object inner ∧ HasField "key" inner ∧
            HasField "value" inner := by
  simp [IsWhole, h]

lemma isChild_iff {items : List Json} (h : kindOf fields = .text "element")
    (hitems : Json.field? "children" fields = some (.array items)) {child : Json} :
    IsChild (.object fields) child ↔ child ∈ items := by
  constructor
  · rintro ⟨_, _, ⟨⟩, -, hnodes, hmem⟩
    cases hitems.symm.trans hnodes
    exact hmem
  · exact fun hmem => ⟨fields, items, rfl, h, hitems, hmem⟩

lemma nodeOffences_eq_nil_iff {v : Json} (h : IsShaped v) :
    nodeOffences v = [] ↔ IsWhole v ∧ ∀ child, IsChild v child → nodeOffences child = [] := by
  obtain ⟨hattributes, hlists, -⟩ := h
  rename_i fields
  obtain hkind | hkind | hkind := kind_cases (kindOf fields)
  · have hchild : ∀ child, IsChild (.object fields) child → nodeOffences child = [] := by
      rintro child ⟨_, _, ⟨⟩, helement, -⟩
      simp [helement] at hkind
    rw [nodeOffences_of_content hkind, plainOffences_eq_nil_iff, isWhole_of_content hkind]
    exact (and_iff_left hchild).symm
  · rw [nodeOffences_of_element hkind, isWhole_of_element hkind, List.append_eq_nil_iff,
      List.append_eq_nil_iff, plainOffences_eq_nil_iff, fieldOffences_eq_nil_iff,
      fieldOffences_eq_nil_iff]
    constructor
    · rintro ⟨htag, ⟨list, hlist, hgood⟩, below, hbelow, hnil⟩
      obtain ⟨items, rfl, hobjects⟩ := hattributes list hlist
      obtain ⟨nodes, rfl⟩ := hlists "children" (by simp) below hbelow
      rw [attributesOffences_eq_nil_iff hobjects] at hgood
      refine ⟨⟨htag, ⟨_, hbelow⟩, items, hlist, hgood⟩, fun child hchild => ?_⟩
      exact allOffences_eq_nil_iff.1 hnil child ((isChild_iff hkind hbelow).1 hchild)
    · rintro ⟨⟨htag, ⟨below, hbelow⟩, items, hlist, hgood⟩, hnil⟩
      obtain ⟨_, ⟨⟩, hobjects⟩ := hattributes _ hlist
      obtain ⟨nodes, rfl⟩ := hlists "children" (by simp) below hbelow
      rw [← attributesOffences_eq_nil_iff hobjects] at hgood
      refine ⟨htag, ⟨_, hlist, hgood⟩, _, hbelow, allOffences_eq_nil_iff.2 fun child hmem => ?_⟩
      exact hnil child ((isChild_iff hkind hbelow).2 hmem)
  · rw [nodeOffences_of_unknown hkind, IsWhole]
    simp [hkind.1, hkind.2.1, hkind.2.2]

/-- There are no offences exactly if every node that is reached is whole. -/
lemma nodeOffences_eq_nil_iff_reached {v : Json} (h : IsShaped v) :
    nodeOffences v = [] ↔ ∀ w, Relation.ReflTransGen IsChild v w → IsWhole w := by
  constructor
  · intro hnil w hw
    have hreached : IsShaped w ∧ nodeOffences w = [] := by
      induction hw with
      | refl => exact ⟨h, hnil⟩
      | tail _ hchild ih =>
        exact ⟨ih.1.child hchild, ((nodeOffences_eq_nil_iff ih.1).1 ih.2).2 _ hchild⟩
    exact ((nodeOffences_eq_nil_iff hreached.1).1 hreached.2).1
  · intro hwhole
    induction h with
    | @object fields hattributes hlists hitems ih =>
      refine (nodeOffences_eq_nil_iff (.object hattributes hlists hitems)).2 ⟨hwhole _ .refl, ?_⟩
      intro child hchild
      obtain ⟨_, items, ⟨⟩, -, hlist, hmem⟩ := id hchild
      exact ih "children" (by simp) items hlist child hmem fun w hw => hwhole w (.head hchild hw)

lemma documentOffences_eq_nil_iff (h : IsShaped (.object fields)) :
    documentOffences fields = [] ↔
      kindOf fields = .text "document" ∧ HasField "nodes" fields ∧
        ∀ v, IsReached fields v → IsWhole v := by
  obtain ⟨-, hlists, hitems⟩ := h
  by_cases hkind : kindOf fields = .text "document"
  · rw [and_iff_right hkind, documentOffences_of_document hkind, fieldOffences_eq_nil_iff]
    constructor
    · rintro ⟨list, hlist, hnil⟩
      obtain ⟨items, rfl⟩ := hlists "nodes" (by simp) list hlist
      refine ⟨⟨_, hlist⟩, ?_⟩
      rintro v ⟨_, hnodes, top, hmem, hreached⟩
      cases hlist.symm.trans hnodes
      have hshaped := hitems "nodes" (by simp) items hlist top hmem
      exact (nodeOffences_eq_nil_iff_reached hshaped).1
        (allOffences_eq_nil_iff.1 hnil top hmem) v hreached
    · rintro ⟨⟨list, hlist⟩, hwhole⟩
      obtain ⟨items, rfl⟩ := hlists "nodes" (by simp) list hlist
      refine ⟨_, hlist, allOffences_eq_nil_iff.2 fun top hmem => ?_⟩
      have hshaped := hitems "nodes" (by simp) items hlist top hmem
      exact (nodeOffences_eq_nil_iff_reached hshaped).2 fun w hw =>
        hwhole w ⟨items, hlist, top, hmem, hw⟩
  · simp [documentOffences_of_other hkind, hkind]

/-! ### What is read is what is left -/

lemma field?_prunedFields (key : String) (fields : List (String × Json)) :
    Json.field? key (prunedFields fields) = (Json.field? key fields).map fun v =>
      if key = "attributes" then prunedAttributes v
      else if key = "nodes" ∨ key = "children" then prunedList v
      else v := by
  induction fields with
  | nil => rfl
  | cons f rest ih =>
    obtain ⟨name, v⟩ := f
    unfold Json.field? at ih ⊢
    rw [prunedFields, List.find?_cons, List.find?_cons]
    by_cases hname : name = key
    · simp [hname]
    · simpa [hname] using ih

lemma field_eq_ok_iff {key : String} {v : Json} :
    field key fields = .ok v ↔ Json.field? key fields = some v := by
  unfold field
  cases Json.field? key fields <;> simp

lemma field?_of_kindOf {s : String} (h : kindOf fields = .text s) :
    Json.field? "_type" fields = some (.text s) := by
  unfold kindOf at h
  cases hv : Json.field? "_type" fields with
  | none => rw [hv] at h; cases h
  | some v => rw [hv] at h; exact congrArg some h

lemma exists_of_bind {α β : Type} {r : Except Error α} {f : α → Except Error β} {b : β}
    (h : r >>= f = .ok b) : ∃ a, r = .ok a ∧ f a = .ok b := by
  cases r with
  | error e => cases h
  | ok a => exact ⟨a, rfl, h⟩

lemma toJson_of_attribute {item : Json} {a : Attribute Json} (h : Attribute.ofJson item = .ok a) :
    a.toJson = prunedAttribute item := by
  cases item with
  | scalar | array => cases h
  | object inner =>
    obtain ⟨key, hkey, h⟩ := exists_of_bind h
    obtain ⟨value, hvalue, h⟩ := exists_of_bind h
    cases h
    rw [field_eq_ok_iff] at hkey hvalue
    simp [Attribute.toJson, prunedAttribute, pick, hkey, hvalue]

lemma toJson_of_attributes {items : List Json} {as : List (Attribute Json)}
    (h : items.mapM Attribute.ofJson = .ok as) :
    as.map Attribute.toJson = items.map prunedAttribute := by
  induction items generalizing as with
  | nil =>
    cases h
    rfl
  | cons item items ih =>
    rw [List.mapM_cons] at h
    obtain ⟨a, ha, h⟩ := exists_of_bind h
    obtain ⟨more, hmore, h⟩ := exists_of_bind h
    cases h
    rw [List.map_cons, List.map_cons, toJson_of_attribute ha, ih hmore]

lemma pruned_of_content {content : Json}
    (hkind : kindOf fields = .text "text" ∨ kindOf fields = .text "comment")
    (hcontent : field "content" fields = .ok content) :
    pruned (.object fields) = .object [("_type", kindOf fields), ("content", content)] := by
  rw [field_eq_ok_iff] at hcontent
  have htype : Json.field? "_type" fields = some (kindOf fields) := by
    obtain h | h := hkind <;> exact h ▸ field?_of_kindOf h
  have hkeys : keysOf (kindOf fields) = ["_type", "content"] := by
    obtain h | h := hkind <;> rw [h] <;> rfl
  rw [pruned, hkeys]
  simp [pick, field?_prunedFields, htype, hcontent]

lemma toJson_of_all {items : List Json} {ns : List (Node Json)}
    (hitems : ∀ item ∈ items, ∀ n, Node.ofJson item = .ok n → n.toJson = pruned item)
    (h : Node.allOfJson items = .ok ns) : Node.allToJson ns = allPruned items := by
  induction items generalizing ns with
  | nil =>
    rw [Node.allOfJson] at h
    cases h
    rfl
  | cons item items ih =>
    obtain ⟨hfirst, hmore⟩ := List.forall_mem_cons.1 hitems
    rw [Node.allOfJson] at h
    obtain ⟨n, hn, h⟩ := exists_of_bind h
    obtain ⟨more, hall, h⟩ := exists_of_bind h
    cases h
    rw [Node.allToJson, allPruned, hfirst n hn, ih hmore hall]

lemma toJson_of_node {v : Json} (h : IsShaped v) :
    ∀ n, Node.ofJson v = .ok n → n.toJson = pruned v := by
  induction h with
  | @object fields hattributes hlists hitems ih =>
    intro n hn
    obtain (hkind | hkind) | hkind | hkind := kind_cases (kindOf fields)
    · rw [ofJson_of_text hkind] at hn
      obtain ⟨content, hcontent, rfl⟩ := Token.map_eq_ok hn
      rw [pruned_of_content (.inl hkind) hcontent, hkind, Node.toJson]
    · rw [ofJson_of_comment hkind] at hn
      obtain ⟨content, hcontent, rfl⟩ := Token.map_eq_ok hn
      rw [pruned_of_content (.inr hkind) hcontent, hkind, Node.toJson]
    · rw [ofJson_of_element hkind] at hn
      obtain ⟨tag, htag, hn⟩ := exists_of_bind hn
      obtain ⟨as, has, hn⟩ := exists_of_bind hn
      obtain ⟨list, hlist, has⟩ := exists_of_bind has
      obtain ⟨children, hchildren, rfl⟩ := Token.map_eq_ok hn
      obtain ⟨below, hbelow, hchildren⟩ := exists_of_bind hchildren
      rw [field_eq_ok_iff] at htag hlist hbelow
      obtain ⟨items, rfl, hobjects⟩ := hattributes list hlist
      obtain ⟨nodes, rfl⟩ := hlists "children" (by simp) below hbelow
      rw [Node.childrenOfJson] at hchildren
      have hall := toJson_of_all (ih "children" (by simp) nodes hbelow) hchildren
      have hpairs := toJson_of_attributes has
      have htype := field?_of_kindOf hkind
      rw [pruned, hkind, Node.toJson, hall, hpairs]
      simp [keysOf, pick, field?_prunedFields, htype, htag, hlist, hbelow, prunedAttributes,
        prunedList]
    · rw [ofJson_of_unknown hkind] at hn
      cases hn

lemma toJson_of_document (h : IsShaped (.object fields)) {d : Document Json}
    (hd : Document.ofJson (.object fields) = .ok d) : d.toJson = pruned (.object fields) := by
  obtain ⟨-, hlists, hitems⟩ := h
  by_cases hkind : kindOf fields = .text "document"
  · rw [ofJson_of_document hkind] at hd
    obtain ⟨ns, hns, rfl⟩ := Token.map_eq_ok hd
    obtain ⟨list, hlist, hns⟩ := exists_of_bind hns
    rw [field_eq_ok_iff] at hlist
    obtain ⟨items, rfl⟩ := hlists "nodes" (by simp) list hlist
    rw [Node.childrenOfJson] at hns
    have hall := toJson_of_all
      (fun item hitem => toJson_of_node (hitems "nodes" (by simp) items hlist item hitem)) hns
    have htype := field?_of_kindOf hkind
    rw [pruned, hkind, Document.toJson, hall]
    simp [keysOf, pick, field?_prunedFields, htype, hlist, prunedList]
  · rw [ofJson_of_other hkind] at hd
    cases hd

end Dump

open Dump

/-- Of the objects whose attributes and nodes are arrays of objects at every level, those are read
that are documents with nodes where every node has a known kind and the fields of its kind. The tree
that is read dumps to the object without all other fields, and this is read as the same tree. Every
other object fails with the first offence that is met depth first, in an element in its tag, then in
its attributes and then in its children. -/
theorem dump_read_iff_whole {fields : List (String × Json)} (h : IsShaped (.object fields)) :
    ((∃ d, Document.ofJson (.object fields) = .ok d) ↔
      kindOf fields = .text "document" ∧ HasField "nodes" fields ∧
        ∀ v, IsReached fields v → IsWhole v) ∧
    (∀ d, Document.ofJson (.object fields) = .ok d →
      d.toJson = pruned (.object fields) ∧ Document.ofJson d.toJson = .ok d) ∧
    ∀ e, Document.ofJson (.object fields) = .error e ↔
      (documentOffences fields).head? = some e := by
  have hfirst := failsFirst_document h
  refine ⟨?_, fun d hd => ?_, fun e => hfirst.error_iff e⟩
  · exact hfirst.ok_iff.trans (documentOffences_eq_nil_iff h)
  · exact ⟨toJson_of_document h hd, Document.ofJson_toJson d⟩

/-- An attribute without a value is met before the unknown node below it, and what a text has beside
its content is left out. -/
theorem dump_read_iff_whole_more_fields :
    let widget : List (String × Json) := [("_type", .text "widget")]
    let p : List (String × Json) := [("_type", .text "element"), ("tag_name", .text "p"),
      ("attributes", .array [.object [("key", .text "id")]]), ("children", .array [.object widget])]
    let text : List (String × Json) :=
      [("content", .text "a"), ("line", .int 3), ("_type", .text "text")]
    let page (node : List (String × Json)) : List (String × Json) :=
      [("version", .null), ("nodes", .array [.object node]), ("_type", .text "document")]
    Document.ofJson (.object (page p)) = .error (.missing "value") ∧
      ∃ d, Document.ofJson (.object (page text)) = .ok d ∧
        d.toJson = .object [("_type", .text "document"),
          ("nodes", .array [.object [("_type", .text "text"), ("content", .text "a")]])] := by
  intro widget p text page
  have hwidget : IsShaped (.object widget) := by
    refine .object ?_ ?_ ?_ <;> simp [widget, Json.field?]
  have hp : IsShaped (.object p) := by
    refine .object ?_ ?_ ?_ <;> simp [p, Json.field?, hwidget]
  have htext : IsShaped (.object text) := by
    refine .object ?_ ?_ ?_ <;> simp [text, Json.field?]
  have hpage (node : List (String × Json)) (hnode : IsShaped (.object node)) :
      IsShaped (.object (page node)) := by
    refine .object ?_ ?_ ?_ <;> simp [page, Json.field?, hnode]
  have hwhole : ∀ v, IsReached (page text) v → IsWhole v := by
    rintro v ⟨_, ⟨⟩, top, htop, hreached⟩
    obtain rfl := List.mem_singleton.1 htop
    obtain rfl | ⟨child, hchild, -⟩ := hreached.cases_head
    · exact .inl ⟨.inl rfl, _, rfl⟩
    · obtain ⟨_, _, ⟨⟩, hkind, -⟩ := hchild
      simp [kindOf, text, Json.field?] at hkind
  obtain ⟨hread, hdump, -⟩ := dump_read_iff_whole (hpage text htext)
  obtain ⟨d, hd⟩ := hread.2 ⟨rfl, ⟨_, rfl⟩, hwhole⟩
  have hfault := ((dump_read_iff_whole (hpage p hp)).2.2 (.missing "value")).2 rfl
  refine ⟨hfault, d, hd, ?_⟩
  rw [(hdump d hd).1]
  rfl

end TagCall
