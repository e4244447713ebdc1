import TagCall.Proofs.Tree.Lines
import TagCall.Tree.Loose
import TagCall.Tree.Mixed

/-!
# Trees from outside

Both kinds of trees from outside are rendered as documents are. Where any value can stand for a
text, a tree of texts is rendered with those of the tags without a body that are texts
(`Loose.html_loose`, `Loose.layout_loose`). Where things that are no nodes can stand among nodes,
the nodes are rendered unless such a thing is met (`Mixed.html_eq`, `Mixed.layout_eq`).
-/

namespace TagCall

/-! ### Any values in the place of texts -/

namespace Scalar

lemma same_text (v : Scalar) (s : String) : v.same (.text s) = decide (v = .text s) := by
  have hratio : ratio? (.text s) = none := rfl
  cases v with
  | float x =>
    unfold same
    cases ratio? (.float x) with
    | none => simp [hratio]
    | some r => simp [hratio]
  | null | bool | int | time | text => simp [same, ratio?]

end Scalar

lemma Json.same_text {s t : String} : Json.same (.text s) (.text t) = true ↔ s = t := by
  rw [Json.same, Scalar.same_text, decide_eq_true_eq, Scalar.text.injEq]

namespace Loose

variable (o : Options)

/-- The tags without a body that are texts. An element of a tree of texts can have no others. -/
def Options.tagNames : List String :=
  o.voidTags.filterMap fun
    | .text tag => some tag
    | _ => none

def Options.html : Html.Options :=
  ⟨o.ignoreComments, o.tagNames⟩

def Options.layout : Layout.Options :=
  ⟨o.indent, o.ignoreComments, o.tagNames⟩

lemma Options.voidTags_html : o.html.voidTags = o.tagNames := rfl

lemma Options.voidTags_layout : o.layout.voidTags = o.tagNames := rfl

lemma Options.mem_tagNames {tag : String} : tag ∈ o.tagNames ↔ .text tag ∈ o.voidTags := by
  unfold Options.tagNames
  rw [List.mem_filterMap]
  constructor
  · rintro ⟨v, hv, htag⟩
    cases v with
    | text s =>
      cases htag
      exact hv
    | null | bool | int | float | time => cases htag
  · exact fun h => ⟨_, h, rfl⟩

lemma isVoidTag_text (tag : String) :
    isVoidTag o.voidTags (.text tag) = .ok (decide (tag ∈ o.tagNames)) := by
  have hany : o.voidTags.any (·.same (.text tag)) = decide (tag ∈ o.tagNames) := by
    rw [Bool.eq_iff_iff, List.any_eq_true, decide_eq_true_eq, o.mem_tagNames]
    simp only [Scalar.same_text, decide_eq_true_eq, exists_eq_right]
  exact congrArg Except.ok hany

lemma plainAttributes_map (attributes : List Attribute) :
    plainAttributes (attributes.map (Attribute.map Json.text)) = attributes := by
  rw [plainAttributes, List.map_map]
  exact List.map_id attributes

lemma allHtmlChars_mapAll (ns : List Node) :
    allHtmlChars o (Node.mapAll Json.text ns) = .ok (Node.allHtmlChars o.html ns) := by
  induction ns using Node.siblings_induction with
  | nil => rfl
  | text content rest ih | comment content rest ih =>
    rw [Node.mapAll, allHtmlChars, ih]
    rfl
  | element tag attributes children rest ihchildren ih =>
    rw [Node.mapAll, Node.map, allHtmlChars, htmlChars, isVoidTag_text, plainAttributes_map,
      ihchildren, ih, Node.allHtmlChars, Node.htmlChars, o.voidTags_html]
    by_cases h : tag ∈ o.tagNames
    · rw [decide_eq_true h, if_pos h]
      rfl
    · rw [decide_eq_false h, if_neg h]
      rfl

/-- On a tree of texts a rendering that takes any values is that of the tree. -/
theorem html_loose (d : Document) : html o d.loose = .ok (d.html o.html) :=
  congrArg (Except.map String.ofList) (allHtmlChars_mapAll o d.nodes)

example (d : Document) : html {} d.loose = .ok (d.html {}) := html_loose {} d

lemma isHidden_map (n : Node) : isHidden o (n.map Json.text) = Layout.isHidden o.layout n := by
  cases n with
  | element | text | comment => rfl

lemma all_isHidden_mapAll (ns : List Node) :
    (Node.mapAll Json.text ns).all (isHidden o) = ns.all (Layout.isHidden o.layout) := by
  induction ns with
  | nil => rfl
  | cons n rest ih => rw [Node.mapAll, List.all_cons, List.all_cons, isHidden_map, ih]

lemma allLines_mapAll (depth : Nat) (ns : List Node) :
    allLines o depth (Node.mapAll Json.text ns) = .ok (Node.allLines o.layout depth ns) := by
  induction ns using Node.siblings_induction generalizing depth with
  | nil => rfl
  | text content rest ih | comment content rest ih =>
    rw [Node.mapAll, allLines, isHidden_map, ih, Node.allLines]
    split
    · rfl
    · rfl
  | element tag attributes children rest ihchildren ih =>
    -- An element is no comment.
    have hshown : isHidden o (Node.map Json.text (.element tag attributes children)) = false :=
      Bool.and_false _
    rw [Node.mapAll, allLines, hshown, Node.map, lines, isVoidTag_text, plainAttributes_map,
      ihchildren, ih, Node.allLines_element, o.voidTags_layout]
    by_cases h : tag ∈ o.tagNames
    · rw [decide_eq_true h, if_pos h]
      rfl
    · rw [decide_eq_false h, if_neg h]
      rfl

theorem layout_loose (d : Document) :
    layout o d.loose = (d.layout? o.layout).mapError .indent := by
  have hblank : d.loose.nodes.all (isHidden o) = d.nodes.all (Layout.isHidden o.layout) :=
    all_isHidden_mapAll o d.nodes
  have hlines : allLines o 0 d.loose.nodes = .ok (Node.allLines o.layout 0 d.nodes) :=
    allLines_mapAll o 0 d.nodes
  have hindent : o.layout.indent = o.indent := rfl
  rw [layout, hblank, hlines, Document.layout?, hindent]
  cases Layout.excess? o.indent (d.nodes.all (Layout.isHidden o.layout)) with
  | none => rfl
  | some e => rfl

lemma sameAttributes_map {as bs : List Attribute} :
    sameAttributes (as.map (Attribute.map Json.text)) (bs.map (Attribute.map Json.text)) = true ↔
      as = bs := by
  induction as generalizing bs with
  | nil => cases bs <;> simp [sameAttributes]
  | cons a as ih =>
    cases bs with
    | nil => simp [sameAttributes]
    | cons b bs =>
      obtain ⟨k, v⟩ := a
      obtain ⟨l, w⟩ := b
      simp [sameAttributes, sameAttribute, Attribute.map, Json.same_text, ih]

lemma allSame_mapAll {ns ms : List Node} :
    allSame (Node.mapAll Json.text ns) (Node.mapAll Json.text ms) = true ↔ ns = ms := by
  induction ns using Node.siblings_induction generalizing ms with
  | nil => cases ms <;> simp [Node.mapAll, allSame]
  | text content rest ih | comment content rest ih =>
    rcases ms with _ | ⟨_ | _ | _, ms⟩ <;>
      simp [Node.mapAll, Node.map, allSame, same, Json.same_text, ih]
  | element tag attributes children rest ihchildren ih =>
    rcases ms with _ | ⟨_ | _ | _, ms⟩ <;>
      simp [Node.mapAll, Node.map, allSame, same, Json.same_text, sameAttributes_map, ih,
        ihchildren, and_assoc]

/-- Trees of texts are the same only if they are equal. -/
theorem sameDocument_loose {d e : Document} : sameDocument d.loose e.loose = true ↔ d = e := by
  obtain ⟨ns⟩ := d
  obtain ⟨ms⟩ := e
  rw [Document.mk.injEq]
  exact allSame_mapAll

end Loose

/-! ### Things that are no nodes -/

lemma Node.allLines_append (o : Layout.Options) (depth : Nat) (ns ms : List Node) :
    Node.allLines o depth (ns ++ ms) = Node.allLines o depth ns ++ Node.allLines o depth ms := by
  induction ns with
  | nil => rfl
  | cons n rest ih =>
    rw [List.cons_append, Node.allLines, Node.allLines, ih]
    split
    · rfl
    · rw [List.append_assoc]

mutual

/-- A node put together from its parts. -/
def Node.apart : Node → Mixed
  | .element tag attributes children => .element tag attributes (Node.allApart children)
  | .text content => .node (.text content)
  | .comment content => .node (.comment content)

def Node.allApart : List Node → List Mixed
  | [] => []
  | n :: rest => n.apart :: Node.allApart rest

end

namespace Mixed

mutual

/-- The nodes among things. -/
def nodes : Mixed → List Node
  | node n => [n]
  | element tag attributes children => [.element tag attributes (allNodes children)]
  | foreign _ => []

def allNodes : List Mixed → List Node
  | [] => []
  | m :: rest => m.nodes ++ allNodes rest

end

mutual

/-- The thing that is no node and is met first. Nothing in an element without a body is met. -/
def foreign? (tags : List String) : Mixed → Option NotANode
  | node _ => none
  | element tag _ children => if tag ∈ tags then none else firstForeign? tags children
  | foreign name => some ⟨name⟩

def firstForeign? (tags : List String) : List Mixed → Option NotANode
  | [] => none
  | m :: rest => (m.foreign? tags).or (firstForeign? tags rest)

end

/-- Induction over siblings from outside and everything below them. -/
@[elab_as_elim]
theorem siblings_induction {motive : List Mixed → Prop} (nil : motive [])
    (node : ∀ n rest, motive rest → motive (.node n :: rest))
    (element : ∀ tag attributes children rest, motive children → motive rest →
      motive (.element tag attributes children :: rest))
    (foreign : ∀ name rest, motive rest → motive (.foreign name :: rest)) :
    ∀ siblings, motive siblings
  | [] => nil
  | .node n :: rest => node n rest (siblings_induction nil node element foreign rest)
  | .element tag attributes children :: rest =>
    element tag attributes children rest (siblings_induction nil node element foreign children)
      (siblings_induction nil node element foreign rest)
  | .foreign name :: rest => foreign name rest (siblings_induction nil node element foreign rest)

/-- What is rendered, unless a thing that is no node is met. -/
def unlessMet {α : Type} : Option NotANode → α → Except NotANode α
  | some e, _ => .error e
  | none, a => .ok a

lemma map_unlessMet {α β : Type} (f : α → β) (met : Option NotANode) (a : α) :
    (unlessMet met a).map f = unlessMet met (f a) := by
  cases met with
  | none | some => rfl

lemma unlessMet_append {α : Type} (met met' : Option NotANode) (as bs : List α) :
    (do return (← unlessMet met as) ++ (← unlessMet met' bs)) =
      unlessMet (met.or met') (as ++ bs) := by
  cases met with
  | some e => rfl
  | none =>
    cases met' with
    | none | some => rfl

lemma allHtmlChars_eq (o : Html.Options) (siblings : List Mixed) :
    allHtmlChars o siblings =
      unlessMet (firstForeign? o.voidTags siblings)
        (Node.allHtmlChars o (allNodes siblings)) := by
  induction siblings using siblings_induction with
  | nil => rfl
  | node n rest ih =>
    rw [allHtmlChars, htmlChars, ih]
    exact unlessMet_append none _ _ _
  | element tag attributes children rest ihchildren ih =>
    rw [allHtmlChars, htmlChars, ihchildren, map_unlessMet, ih, firstForeign?, foreign?, allNodes,
      nodes, List.singleton_append, Node.allHtmlChars, Node.htmlChars]
    by_cases h : tag ∈ o.voidTags
    · rw [if_pos h, if_pos h, if_pos h]
      exact unlessMet_append none _ _ _
    · rw [if_neg h, if_neg h, if_neg h]
      exact unlessMet_append _ _ _ _
  | foreign name rest => rfl

lemma allLines_eq (o : Layout.Options) (depth : Nat) (siblings : List Mixed) :
    allLines o depth siblings =
      unlessMet (firstForeign? o.voidTags siblings)
        (Node.allLines o depth (allNodes siblings)) := by
  induction siblings using siblings_induction generalizing depth with
  | nil => rfl
  | node n rest ih =>
    rw [allLines, lines, ih, allNodes, Node.allLines_append]
    exact unlessMet_append none _ _ _
  | element tag attributes children rest ihchildren ih =>
    rw [allLines, lines, ihchildren, map_unlessMet, ih, firstForeign?, foreign?, allNodes, nodes,
      List.singleton_append, Node.allLines_element]
    by_cases h : tag ∈ o.voidTags
    · rw [if_pos h, if_pos h, if_pos h]
      exact unlessMet_append none _ _ _
    · rw [if_neg h, if_neg h, if_neg h]
      exact unlessMet_append _ _ _ _
  | foreign name rest => rfl

/-- The HTML of things is that of the nodes among them, unless a thing that is no node is met. -/
theorem html_eq (o : Html.Options) (siblings : List Mixed) :
    html o siblings =
      match firstForeign? o.voidTags siblings with
      | some e => .error ("Cannot render " ++ e.typeName)
      | none => .ok (Document.html o ⟨allNodes siblings⟩) := by
  rw [html, allHtmlChars_eq]
  cases firstForeign? o.voidTags siblings with
  | none | some => rfl

theorem layout_eq (o : Layout.Options) (siblings : List Mixed) :
    layout o siblings =
      match firstForeign? o.voidTags siblings with
      | some e => .error ("Cannot format " ++ e.typeName)
      | none => .ok (Document.layout o ⟨allNodes siblings⟩) := by
  rw [layout, allLines_eq]
  cases firstForeign? o.voidTags siblings with
  | none | some => rfl

lemma allNodes_apart (ns : List Node) : allNodes (Node.allApart ns) = ns := by
  induction ns using Node.siblings_induction with
  | nil => rfl
  | text content rest ih | comment content rest ih => exact congrArg _ ih
  | element tag attributes children rest ihchildren ih =>
    rw [Node.allApart, Node.apart, allNodes, nodes, ihchildren, ih]
    rfl

lemma firstForeign?_apart (tags : List String) (ns : List Node) :
    firstForeign? tags (Node.allApart ns) = none := by
  induction ns using Node.siblings_induction with
  | nil => rfl
  | text content rest ih | comment content rest ih => exact ih
  | element tag attributes children rest ihchildren ih =>
    rw [Node.allApart, Node.apart, firstForeign?, foreign?, ihchildren, ih, ite_self]
    rfl

/-- A tree of nodes that are put together from their parts is rendered as it is. -/
theorem html_apart (o : Html.Options) (d : Document) :
    html o (Node.allApart d.nodes) = .ok (d.html o) := by
  rw [html_eq, firstForeign?_apart, allNodes_apart]

theorem layout_apart (o : Layout.Options) (d : Document) :
    layout o (Node.allApart d.nodes) = .ok (d.layout o) := by
  rw [layout_eq, firstForeign?_apart, allNodes_apart]

end Mixed

end TagCall
