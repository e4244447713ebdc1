import TagCall.Proofs.Tree.Grammar
import TagCall.Tree.Html

/-!
# Texts side by side

Nothing stands between two texts in HTML, and nothing stands for an empty one. Merging the texts of
a tree leaves its HTML as it is (`html_merged`), and afterwards no text is empty or has another one
right behind it (`separated_allMerged`).
-/

namespace TagCall

namespace Node

/-- A node in front of its siblings. A text takes in the one right behind it, and an empty text is
dropped. -/
def join : Node → List Node → List Node
  | .text content, .text more :: rest => .text (content ++ more) :: rest
  | .text content, rest => if content = "" then rest else .text content :: rest
  | n, rest => n :: rest

mutual

/-- A node with its texts merged at all levels. -/
def merged : Node → Node
  | .element tag attributes children => .element tag attributes (allMerged children)
  | .text content => .text content
  | .comment content => .comment content

def allMerged : List Node → List Node
  | [] => []
  | n :: rest => join n.merged (allMerged rest)

end

/-- No text is empty or has a text right behind it, at any level. -/
inductive Separated : List Node → Prop where
  | nil : Separated []
  | text {content : String} {rest : List Node} :
    content ≠ "" → (∀ more, .text more ∉ rest.head?) → Separated rest →
      Separated (.text content :: rest)
  | comment {content : String} {rest : List Node} :
    Separated rest → Separated (.comment content :: rest)
  | element {tag : String} {attributes : List Attribute} {children rest : List Node} :
    Separated children → Separated rest → Separated (.element tag attributes children :: rest)

end Node

def Document.merged (d : Document) : Document :=
  ⟨Node.allMerged d.nodes⟩

/-! ### Putting a text in front -/

section

variable {content : String} {rest : List Node}

lemma join_text_cases (content : String) (rest : List Node) :
    (∃ more tail, rest = .text more :: tail ∧
      Node.join (.text content) rest = .text (content ++ more) :: tail) ∨
    (content = "" ∧ Node.join (.text content) rest = rest) ∨
    (content ≠ "" ∧ (∀ more, .text more ∉ rest.head?) ∧
      Node.join (.text content) rest = .text content :: rest) := by
  by_cases htext : ∃ more tail, rest = .text more :: tail
  · obtain ⟨more, tail, rfl⟩ := htext
    exact .inl ⟨more, tail, rfl, rfl⟩
  · have hnone : ∀ more tail, rest ≠ .text more :: tail := by
      intro more tail h
      exact htext ⟨more, tail, h⟩
    have hhead : ∀ more, .text more ∉ rest.head? := by
      intro more h
      obtain ⟨tail, htail⟩ := List.head?_eq_some_iff.1 h
      exact hnone more tail htail
    have hjoin : Node.join (.text content) rest =
        if content = "" then rest else .text content :: rest := by
      rw [Node.join]
      exact hnone
    by_cases h : content = ""
    · exact .inr (.inl ⟨h, by rw [hjoin, if_pos h]⟩)
    · exact .inr (.inr ⟨h, hhead, by rw [hjoin, if_neg h]⟩)

lemma allHtmlChars_join_text (o : Html.Options) :
    Node.allHtmlChars o (Node.join (.text content) rest) =
      content.toList ++ Node.allHtmlChars o rest := by
  obtain ⟨more, tail, rfl, hjoin⟩ | ⟨rfl, hjoin⟩ | ⟨-, -, hjoin⟩ := join_text_cases content rest
  · simp [hjoin, Node.allHtmlChars, Node.htmlChars]
  · rw [hjoin]
    rfl
  · rw [hjoin]
    rfl

lemma separated_join_text (h : Node.Separated rest) :
    Node.Separated (Node.join (.text content) rest) := by
  obtain ⟨more, tail, rfl, hjoin⟩ | ⟨-, hjoin⟩ | ⟨hne, hhead, hjoin⟩ :=
    join_text_cases content rest
  · rw [hjoin]
    cases h with
    | text hmore hhead htail => exact .text (by simp [hmore]) hhead htail
  · rwa [hjoin]
  · rw [hjoin]
    exact .text hne hhead h

lemma forall_parts_join_text {p : Node → Prop}
    (happend : ∀ a b, p (.text a) → p (.text b) → p (.text (a ++ b)))
    (hcontent : p (.text content)) (hrest : ∀ n ∈ Node.allParts rest, p n) :
    ∀ n ∈ Node.allParts (Node.join (.text content) rest), p n := by
  obtain ⟨more, tail, rfl, hjoin⟩ | ⟨-, hjoin⟩ | ⟨-, -, hjoin⟩ := join_text_cases content rest
  · rw [Node.forall_parts_text] at hrest
    rw [hjoin, Node.forall_parts_text]
    exact ⟨happend _ _ hcontent hrest.1, hrest.2⟩
  · rwa [hjoin]
  · rw [hjoin, Node.forall_parts_text]
    exact ⟨hcontent, hrest⟩

end

/-! ### Merging all texts -/

section

variable (rest : List Node)

@[simp]
lemma Node.allMerged_text (content : String) :
    Node.allMerged (.text content :: rest) = Node.join (.text content) (Node.allMerged rest) :=
  rfl

@[simp]
lemma Node.allMerged_comment (content : String) :
    Node.allMerged (.comment content :: rest) = .comment content :: Node.allMerged rest :=
  rfl

@[simp]
lemma Node.allMerged_element (tag : String) (attributes : List Attribute) (children : List Node) :
    Node.allMerged (.element tag attributes children :: rest) =
      .element tag attributes (Node.allMerged children) :: Node.allMerged rest :=
  rfl

end

lemma separated_allMerged (ns : List Node) : Node.Separated (Node.allMerged ns) := by
  induction ns using Node.siblings_induction with
  | nil => exact .nil
  | text content rest ih => exact separated_join_text ih
  | comment content rest ih => exact .comment ih
  | element tag attributes children rest ihchildren ih => exact .element ihchildren ih

lemma allHtmlChars_allMerged (o : Html.Options) (ns : List Node) :
    Node.allHtmlChars o (Node.allMerged ns) = Node.allHtmlChars o ns := by
  induction ns using Node.siblings_induction with
  | nil => rfl
  | text content rest ih =>
    rw [Node.allMerged_text, allHtmlChars_join_text, ih]
    rfl
  | comment content rest ih =>
    rw [Node.allMerged_comment, Node.allHtmlChars, Node.allHtmlChars, ih]
  | element tag attributes children rest ihchildren ih =>
    rw [Node.allMerged_element, Node.allHtmlChars, Node.allHtmlChars, ih, Node.htmlChars,
      Node.htmlChars, ihchildren]

lemma html_merged (o : Html.Options) (d : Document) : d.merged.html o = d.html o := by
  rw [Document.html, Document.merged, allHtmlChars_allMerged]
  rfl

end TagCall
