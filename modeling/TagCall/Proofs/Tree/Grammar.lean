import Mathlib.Data.List.Basic
import Mathlib.Tactic.Lemma
import TagCall.Tree.Read

/-!
# The tokens of a tree

The grammar of trees, as the list of tokens that spells a given tree, and the nodes of a tree at all
depths. Symbols have no value in the grammar, and `Token.bare` takes the value of a symbol away.
-/

namespace TagCall

/-- A token without the value of a symbol. -/
def Token.bare (t : Token) : Token :=
  if t.kind.isSymbol then ⟨t.kind, ""⟩ else t

def Attribute.tokens (a : Attribute) : List Token :=
  [⟨.name, a.key⟩, ⟨.equals, ""⟩, ⟨.text, a.value⟩]

lemma Token.bare_eq_symbol {t : Token} {kind : Kind} (h : kind.isSymbol = true) :
    t.bare = ⟨kind, ""⟩ ↔ t.kind = kind := by
  unfold Token.bare
  constructor
  · intro ht
    split at ht
    · exact congrArg Token.kind ht
    · exact congrArg Token.kind ht
  · rintro rfl
    rw [if_pos h]

lemma Token.bare_eq_valued {t : Token} {kind : Kind} {value : String}
    (h : kind.isSymbol = false) : t.bare = ⟨kind, value⟩ ↔ t = ⟨kind, value⟩ := by
  unfold Token.bare
  constructor
  · intro ht
    split at ht
    · rename_i hkind
      rw [congrArg Token.kind ht, h] at hkind
      cases hkind
    · exact ht
  · rintro rfl
    rw [if_neg (by simp [h])]

namespace Grammar

/-- An element up to where its attributes end. -/
def startTokens (tag : String) (attributes : List Attribute) : List Token :=
  ⟨.name, tag⟩ :: ⟨.openParen, ""⟩ :: attributes.flatMap Attribute.tokens

/-- An element up to its closing parenthesis. -/
def headTokens (tag : String) (attributes : List Attribute) : List Token :=
  startTokens tag attributes ++ [⟨.closeParen, ""⟩]

/-- An element up to its opening brace. -/
def openingTokens (tag : String) (attributes : List Attribute) : List Token :=
  headTokens tag attributes ++ [⟨.openBrace, ""⟩]

end Grammar

mutual

def Node.tokens (tags : List String) : Node → List Token
  | .element tag attributes children =>
    if tag ∈ tags then Grammar.headTokens tag attributes
    else
      Grammar.openingTokens tag attributes ++
        (Node.allTokens tags children ++ [⟨.closeBrace, ""⟩])
  | .text content => [⟨.text, content⟩]
  | .comment content => [⟨.comment, content⟩]

def Node.allTokens (tags : List String) : List Node → List Token
  | [] => []
  | n :: rest => n.tokens tags ++ Node.allTokens tags rest

end

def Document.tokens (tags : List String) (d : Document) : List Token :=
  Node.allTokens tags d.nodes

mutual

/-- A node and all nodes below it. -/
def Node.parts : Node → List Node
  | .element tag attributes children => .element tag attributes children :: Node.allParts children
  | .text content => [.text content]
  | .comment content => [.comment content]

def Node.allParts : List Node → List Node
  | [] => []
  | n :: rest => n.parts ++ Node.allParts rest

end

def Document.parts (d : Document) : List Node :=
  Node.allParts d.nodes

lemma Node.forall_parts_nil {p : Node → Prop} : ∀ n ∈ Node.allParts [], p n := by
  simp [Node.allParts]

@[simp]
lemma Node.forall_parts_text {p : Node → Prop} {content : String} {rest : List Node} :
    (∀ n ∈ Node.allParts (.text content :: rest), p n) ↔
      p (.text content) ∧ ∀ n ∈ Node.allParts rest, p n := by
  simp [Node.allParts, Node.parts]

@[simp]
lemma Node.forall_parts_comment {p : Node → Prop} {content : String} {rest : List Node} :
    (∀ n ∈ Node.allParts (.comment content :: rest), p n) ↔
      p (.comment content) ∧ ∀ n ∈ Node.allParts rest, p n := by
  simp [Node.allParts, Node.parts]

@[simp]
lemma Node.forall_parts_element {p : Node → Prop} {tag : String} {attributes : List Attribute}
    {children rest : List Node} :
    (∀ n ∈ Node.allParts (.element tag attributes children :: rest), p n) ↔
      p (.element tag attributes children) ∧ (∀ n ∈ Node.allParts children, p n) ∧
        ∀ n ∈ Node.allParts rest, p n := by
  rw [Node.allParts, Node.parts, List.cons_append, List.forall_mem_cons, List.forall_mem_append]

/-- A node has no children if its tag allows none. -/
def Node.IsBareIfVoid (tags : List String) : Node → Prop
  | .element tag _ children => tag ∈ tags → children = []
  | _ => True

/-- Induction over siblings and everything below them. -/
@[elab_as_elim]
theorem Node.siblings_induction {α : Type} {motive : List (Node α) → Prop} (nil : motive [])
    (text : ∀ content rest, motive rest → motive (.text content :: rest))
    (comment : ∀ content rest, motive rest → motive (.comment content :: rest))
    (element : ∀ tag attributes children rest, motive children → motive rest →
      motive (.element tag attributes children :: rest)) :
    ∀ siblings, motive siblings
  | [] => nil
  | .text content :: rest =>
    text content rest (siblings_induction nil text comment element rest)
  | .comment content :: rest =>
    comment content rest (siblings_induction nil text comment element rest)
  | .element tag attributes children :: rest =>
    element tag attributes children rest (siblings_induction nil text comment element children)
      (siblings_induction nil text comment element rest)

end TagCall
