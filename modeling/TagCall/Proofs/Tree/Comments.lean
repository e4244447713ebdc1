import TagCall.Proofs.Tree.Idempotence
import TagCall.Tree.Html

/-!
# Trees without comments

Rendering a tree with comments hidden is rendering the tree that has none, as HTML and as canonical
source (`allHtmlChars_withoutComments`, `allLines_withoutComments`). The tree without comments is
what a canonical source with hidden comments is read back as.
-/

namespace TagCall

open Layout

mutual

/-- A node less all comments below it. -/
def Node.withoutComments : Node → Node
  | .element tag attributes children =>
    .element tag attributes (Node.allWithoutComments children)
  | .text content => .text content
  | .comment content => .comment content

/-- Siblings less all comments, among them and below. -/
def Node.allWithoutComments : List Node → List Node
  | [] => []
  | n :: rest =>
    if n.isComment then Node.allWithoutComments rest
    else n.withoutComments :: Node.allWithoutComments rest

end

def Document.withoutComments (d : Document) : Document :=
  ⟨Node.allWithoutComments d.nodes⟩

section

variable (rest : List Node)

@[simp]
lemma Node.allWithoutComments_text (content : String) :
    Node.allWithoutComments (.text content :: rest) =
      .text content :: Node.allWithoutComments rest := by
  simp [Node.allWithoutComments, Node.withoutComments, Node.isComment]

@[simp]
lemma Node.allWithoutComments_comment (content : String) :
    Node.allWithoutComments (.comment content :: rest) = Node.allWithoutComments rest := by
  simp [Node.allWithoutComments, Node.isComment]

@[simp]
lemma Node.allWithoutComments_element (tag : String) (attributes : List Attribute)
    (children : List Node) :
    Node.allWithoutComments (.element tag attributes children :: rest) =
      .element tag attributes (Node.allWithoutComments children) ::
        Node.allWithoutComments rest := by
  simp [Node.allWithoutComments, Node.withoutComments, Node.isComment]

end

/-! ### Both renderings -/

lemma allHtmlChars_withoutComments (ignoreComments : Bool) (tags : List String) (ns : List Node) :
    Node.allHtmlChars ⟨ignoreComments, tags⟩ (Node.allWithoutComments ns) =
      Node.allHtmlChars ⟨true, tags⟩ ns := by
  induction ns using Node.siblings_induction with
  | nil => rfl
  | text content rest ih =>
    rw [Node.allWithoutComments_text, Node.allHtmlChars, Node.allHtmlChars, ih]
    rfl
  | comment content rest ih =>
    rw [Node.allWithoutComments_comment, Node.allHtmlChars, ih]
    rfl
  | element tag attributes children rest ihchildren ih =>
    rw [Node.allWithoutComments_element, Node.allHtmlChars, Node.allHtmlChars, ih, Node.htmlChars,
      Node.htmlChars, ihchildren]

lemma allLines_withoutComments (ignoreComments : Bool) (indent : Indent) (tags : List String)
    (ns : List Node) (depth : Nat) :
    Node.allLines ⟨indent, ignoreComments, tags⟩ depth (Node.allWithoutComments ns) =
      Node.allLines ⟨indent, true, tags⟩ depth ns := by
  induction ns using Node.siblings_induction generalizing depth with
  | nil => rfl
  | text content rest ih =>
    rw [Node.allWithoutComments_text, Node.allLines_text, Node.allLines_text, ih]
  | comment content rest ih =>
    rw [Node.allWithoutComments_comment, Node.allLines_comment, if_pos rfl, ih]
  | element tag attributes children rest ihchildren ih =>
    rw [Node.allWithoutComments_element, Node.allLines_element, Node.allLines_element, ih,
      ihchildren]

lemma allWithoutComments_eq_nil_iff (ns : List Node) :
    Node.allWithoutComments ns = [] ↔ ns.all Node.isComment = true := by
  induction ns with
  | nil => simp [Node.allWithoutComments]
  | cons n rest ih => cases n <;> simp [ih, Node.isComment]

lemma html_withoutComments (tags : List String) (d : Document) :
    d.withoutComments.html ⟨false, tags⟩ = d.html ⟨true, tags⟩ := by
  rw [Document.html, Document.withoutComments, allHtmlChars_withoutComments]
  rfl

lemma layout_withoutComments (indent : Indent) (tags : List String) (d : Document) :
    d.withoutComments.layout ⟨indent, false, tags⟩ = d.layout ⟨indent, true, tags⟩ := by
  rw [Document.layout, Document.withoutComments, allLines_withoutComments]
  rfl

lemma layout?_withoutComments (indent : Indent) (tags : List String) (d : Document) :
    d.withoutComments.layout? ⟨indent, false, tags⟩ = d.layout? ⟨indent, true, tags⟩ := by
  have hblank : d.withoutComments.nodes.all (isHidden ⟨indent, false, tags⟩) =
      d.nodes.all (isHidden ⟨indent, true, tags⟩) := by
    have hshown : isHidden ⟨indent, false, tags⟩ = fun _ => false := rfl
    have hhidden : isHidden ⟨indent, true, tags⟩ = Node.isComment := rfl
    rw [hshown, hhidden, Bool.eq_iff_iff, ← allWithoutComments_eq_nil_iff]
    cases h : Node.allWithoutComments d.nodes <;> simp [Document.withoutComments, h]
  unfold Document.layout?
  rw [hblank, layout_withoutComments]

/-! ### Reading back -/

lemma allKept_of_hidden {o : Layout.Options} (ho : o.ignoreComments = true) (ns : List Node) :
    Node.allKept o ns = Node.allWithoutComments ns := by
  induction ns using Node.siblings_induction with
  | nil => rfl
  | text content rest ih => rw [Node.allKept_text, Node.allWithoutComments_text, ih]
  | comment content rest ih =>
    rw [Node.allKept_comment, if_pos ho, Node.allWithoutComments_comment, ih]
  | element tag attributes children rest ihchildren ih =>
    rw [Node.allKept_element, Node.allWithoutComments_element, ihchildren, ih]

lemma kept_of_hidden {o : Layout.Options} (ho : o.ignoreComments = true) (d : Document) :
    d.kept o = d.withoutComments := by
  rw [Document.kept, allKept_of_hidden ho]
  rfl

/-- A text that is read has a canonical source, unless its indentation can not be written out. -/
lemma ofSource_eq_layout_or_excess (o : Layout.Options) {s : String} {d : Document}
    (h : Document.ofSource o.voidTags s = .ok d) :
    Layout.ofSource o s = .ok (d.layout o) ∨
      ∃ e, o.indent.excess? = some e ∧ Layout.ofSource o s = .error (.indent e) := by
  have hsource : Layout.ofSource o s = (d.layout? o).mapError .indent := by
    rw [Layout.ofSource, h]
    rfl
  rw [hsource, Document.layout?]
  cases hexcess : excess? o.indent (d.nodes.all (isHidden o)) with
  | none => exact .inl rfl
  | some e =>
    refine .inr ⟨e, ?_, rfl⟩
    unfold excess? at hexcess
    split at hexcess
    · cases hexcess
    · exact hexcess

/-- Hiding comments is leaving them out of the tree, for the HTML and for the canonical source. The
canonical source with hidden comments of a text is read back as the tree of the text without its
comments. -/
theorem hidden_comments_are_left_out (tags : List String) (indent : Indent) (d : Document) :
    d.html ⟨true, tags⟩ = d.withoutComments.html ⟨false, tags⟩ ∧
    d.layout ⟨indent, true, tags⟩ = d.withoutComments.layout ⟨indent, false, tags⟩ ∧
    d.layout? ⟨indent, true, tags⟩ = d.withoutComments.layout? ⟨indent, false, tags⟩ ∧
    ∀ s, Document.ofSource tags s = .ok d →
      Document.ofSource tags (d.layout ⟨indent, true, tags⟩) = .ok d.withoutComments ∧
      (Layout.ofSource ⟨indent, true, tags⟩ s = .ok (d.layout ⟨indent, true, tags⟩) ∨
        ∃ e, indent.excess? = some e ∧
          Layout.ofSource ⟨indent, true, tags⟩ s = .error (.indent e)) := by
  refine ⟨(html_withoutComments tags d).symm, (layout_withoutComments indent tags d).symm,
    (layout?_withoutComments indent tags d).symm, ?_⟩
  intro s h
  refine ⟨?_, ofSource_eq_layout_or_excess ⟨indent, true, tags⟩ h⟩
  rw [← kept_of_hidden (o := ⟨indent, true, tags⟩) rfl d]
  exact ofSource_layout (isWritable_of_ofSource h)

/-- A body of comments only, one of which ends in a carriage return, and a comment at the end. -/
theorem hidden_comments_are_left_out_of_body :
    Document.ofSource ["br"] "p()\x7b// a\r\r\n//\n\x7dbr()// b" =
        .ok ⟨[.element "p" [] [.comment "a\r", .comment ""], .element "br" [] [],
          .comment "b"]⟩ ∧
      Layout.ofSource ⟨.tab, true, ["br"]⟩ "p()\x7b// a\r\r\n//\n\x7dbr()// b" =
        .ok "p()\x7b\n\x7d\nbr()" ∧
      Document.ofSource ["br"] "p()\x7b\n\x7d\nbr()" =
        .ok ⟨[.element "p" [] [], .element "br" [] []]⟩ := by
  have h : Document.ofSource ["br"] "p()\x7b// a\r\r\n//\n\x7dbr()// b" =
      .ok ⟨[.element "p" [] [.comment "a\r", .comment ""], .element "br" [] [],
        .comment "b"]⟩ := by
    decide +kernel
  obtain ⟨-, -, -, hread⟩ := hidden_comments_are_left_out ["br"] .tab _
  obtain ⟨hback, hsource | ⟨e, he, -⟩⟩ := hread _ h
  · exact ⟨h, hsource, hback⟩
  · cases he

end TagCall
