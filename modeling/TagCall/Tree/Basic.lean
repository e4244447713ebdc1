import TagCall.Text.Quoted

/-!
Trees of elements, texts and comments. Order and duplicates of attributes are kept. What stands for
tags, keys, values and contents is a parameter; it is text unless a tree comes from outside.
-/

namespace TagCall

structure Attribute (α : Type := String) where
  key : α
  value : α
  deriving DecidableEq, Repr

inductive Node (α : Type := String) where
  | element (tag : α) (attributes : List (Attribute α)) (children : List (Node α))
  | text (content : α)
  | comment (content : α)
  deriving Repr

mutual

def Node.decideEq {α : Type} [DecidableEq α] : (a b : Node α) → Decidable (a = b)
  | .element t as cs, .element t' as' cs' =>
    match decEq t t', decEq as as', Node.decideEqAll cs cs' with
    | isTrue h, isTrue h', isTrue h'' => isTrue (by rw [h, h', h''])
    | isFalse h, _, _ => isFalse (by simp [h])
    | _, isFalse h, _ => isFalse (by simp [h])
    | _, _, isFalse h => isFalse (by simp [h])
  | .text a, .text b => decidable_of_iff (a = b) (by simp)
  | .comment a, .comment b => decidable_of_iff (a = b) (by simp)
  | .element .., .text _ | .element .., .comment _ | .text _, .element .. | .text _, .comment _
  | .comment _, .element .. | .comment _, .text _ => isFalse (by simp)

def Node.decideEqAll {α : Type} [DecidableEq α] : (as bs : List (Node α)) → Decidable (as = bs)
  | [], [] => isTrue rfl
  | [], _ :: _ | _ :: _, [] => isFalse (by simp)
  | a :: as, b :: bs =>
    match Node.decideEq a b, Node.decideEqAll as bs with
    | isTrue h, isTrue h' => isTrue (by rw [h, h'])
    | isFalse h, _ => isFalse (by simp [h])
    | _, isFalse h => isFalse (by simp [h])

end

instance {α : Type} [DecidableEq α] : DecidableEq (Node α) := Node.decideEq

structure Document (α : Type := String) where
  nodes : List (Node α)
  deriving DecidableEq, Repr

/-- The tags whose elements have no body unless a caller says otherwise. -/
def defaultVoidTags : List String :=
  ["area", "base", "br", "col", "embed", "hr", "img", "input", "keygen", "link", "meta", "param",
    "source"]

def Attribute.map {α β : Type} (f : α → β) (a : Attribute α) : Attribute β :=
  ⟨f a.key, f a.value⟩

mutual

/-- The tree of the same shape with the images of its texts. -/
def Node.map {α β : Type} (f : α → β) : Node α → Node β
  | .element tag attributes children =>
    .element (f tag) (attributes.map (Attribute.map f)) (Node.mapAll f children)
  | .text content => .text (f content)
  | .comment content => .comment (f content)

def Node.mapAll {α β : Type} (f : α → β) : List (Node α) → List (Node β)
  | [] => []
  | n :: rest => n.map f :: Node.mapAll f rest

end

def Document.map {α β : Type} (f : α → β) (d : Document α) : Document β :=
  ⟨Node.mapAll f d.nodes⟩

mutual

/-- How many nodes a tree has, itself included. -/
def Node.size {α : Type} : Node α → Nat
  | .element _ _ children => Node.totalSize children + 1
  | _ => 1

def Node.totalSize {α : Type} : List (Node α) → Nat
  | [] => 0
  | n :: rest => n.size + Node.totalSize rest

end

namespace Node

def isElement {α : Type} : Node α → Bool
  | element .. => true
  | _ => false

def isComment {α : Type} : Node α → Bool
  | comment _ => true
  | _ => false

def describe : Node → String
  | element tag attributes children =>
    s!"Element({tag}, {attributes.length} attributes, {children.length} children)"
  | text content => "Text(" ++ Text.quoted content ++ ")"
  | comment content => "Comment(" ++ Text.quoted content ++ ")"

end Node

def Document.describe {α : Type} (d : Document α) : String :=
  s!"Document({d.nodes.length} nodes)"

/-- Why a path of indices leads to no node. -/
inductive PathError where
  | noSuchNode
  | notAnElement
  deriving DecidableEq, Repr

/-- The item at an index, counted from the end if it is negative. -/
def itemAt? {α : Type} (items : List α) (i : Int) : Option α :=
  if 0 ≤ i then items[i.toNat]?
  else if -(items.length : Int) ≤ i then items[(items.length + i).toNat]?
  else none

/-- The node reached from a list of siblings by an index into it and then into children. -/
def Node.atPath {α : Type} (siblings : List (Node α)) : List Int → Except PathError (Node α)
  | [] => .error .noSuchNode
  | i :: path =>
    match itemAt? siblings i, path with
    | none, _ => .error .noSuchNode
    | some n, [] => .ok n
    | some (.element _ _ children), j :: path => Node.atPath children (j :: path)
    | some _, _ :: _ => .error .notAnElement

end TagCall
