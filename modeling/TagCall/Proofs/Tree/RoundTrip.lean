import TagCall.Proofs.Tree.Acceptance
import TagCall.Proofs.Tree.Lines

/-!
# Reading the canonical source back

What is read back is what the canonical source keeps, for every tree whose strings can stand in a
source text (`ofSource_layout`). Only such trees are ever read (`isWritable_of_ofSource`), so the
trees that are read back unchanged are exactly those of them in which no comment ends in a carriage
return.
-/

namespace TagCall

open Grammar Layout Token

/-- A comment whose last character is a carriage return. -/
def Node.EndsInReturn : Node → Prop
  | .comment content => content.toList.getLast? = some '\r'
  | _ => False

/-! ### What can be read -/

lemma Token.IsLexical.bare {t : Token} (h : t.IsLexical) : t.bare.IsLexical := by
  unfold Token.bare
  split
  · obtain ⟨kind, value⟩ := t
    cases kind <;> trivial
  · exact h

lemma isLexical_attributes {as : List Attribute}
    (h : ∀ t ∈ as.flatMap Attribute.tokens, t.IsLexical) :
    ∀ a ∈ as, IsName a.key.toList ∧ IsBody a.value.toList := by
  intro a ha
  have hmem : ∀ t ∈ a.tokens, t.IsLexical := by
    intro t ht
    exact h t (List.mem_flatMap.2 ⟨a, ha, ht⟩)
  have hkey : IsLexical ⟨.name, a.key⟩ := hmem _ (by simp [Attribute.tokens])
  have hvalue : IsLexical ⟨.text, a.value⟩ := hmem _ (by simp [Attribute.tokens])
  exact ⟨hkey, hvalue⟩

lemma isLexical_start {tag : String} {as : List Attribute}
    (h : ∀ t ∈ startTokens tag as, t.IsLexical) :
    IsName tag.toList ∧ ∀ a ∈ as, IsName a.key.toList ∧ IsBody a.value.toList := by
  have htag : IsLexical ⟨.name, tag⟩ := h _ (by simp [startTokens])
  refine ⟨htag, isLexical_attributes ?_⟩
  intro t ht
  exact h t (by simp [startTokens, ht])

/-- Strings that come from lexemes can stand in a source text. -/
lemma isWritable_of_isLexical {tags : List String} {ns : List Node}
    (hbare : ∀ n ∈ Node.allParts ns, n.IsBareIfVoid tags)
    (h : ∀ t ∈ Node.allTokens tags ns, t.IsLexical) :
    ∀ n ∈ Node.allParts ns, n.IsWritable tags := by
  induction ns using Node.siblings_induction with
  | nil => exact Node.forall_parts_nil
  | text content rest ih | comment content rest ih =>
    simp only [Node.forall_parts_text, Node.forall_parts_comment] at hbare ⊢
    rw [Node.allTokens, Node.tokens, List.singleton_append, List.forall_mem_cons] at h
    exact ⟨h.1, ih hbare.2 h.2⟩
  | element tag attributes children rest ihchildren ih =>
    rw [Node.forall_parts_element] at hbare ⊢
    obtain ⟨hself, hchildren, hrest⟩ := hbare
    rw [Node.allTokens, Node.tokens, List.forall_mem_append] at h
    obtain ⟨hown, hmore⟩ := h
    by_cases htag : tag ∈ tags
    · rw [if_pos htag, headTokens, List.forall_mem_append] at hown
      obtain ⟨hname, has⟩ := isLexical_start hown.1
      obtain rfl : children = [] := hself htag
      exact ⟨⟨hname, has, fun _ => rfl⟩, Node.forall_parts_nil, ih hrest hmore⟩
    · rw [if_neg htag, openingTokens, headTokens] at hown
      simp only [List.forall_mem_append] at hown
      obtain ⟨hname, has⟩ := isLexical_start hown.1.1.1
      exact ⟨⟨hname, has, hself⟩, ihchildren hchildren hown.2.1, ih hrest hmore⟩

lemma ofSource_eq_ok_iff {tags : List String} {source : String} {d : Document} :
    Document.ofSource tags source = .ok d ↔
      ∃ ts, lex source = .ok ts ∧ Document.ofTokens tags ts = .ok d := by
  unfold Document.ofSource
  constructor
  · intro h
    split at h
    · cases h
    · rename_i ts hts
      split at h
      · cases h
      · rename_i d' hd
        rw [Except.ok.inj h] at hd
        exact ⟨ts, hts, hd⟩
  · rintro ⟨ts, hts, hd⟩
    rw [hts]
    simp only [hd]

/-- Only writable trees are read. -/
lemma isWritable_of_ofSource {tags : List String} {source : String} {d : Document}
    (h : Document.ofSource tags source = .ok d) : ∀ n ∈ d.parts, n.IsWritable tags := by
  obtain ⟨ts, hts, hd⟩ := ofSource_eq_ok_iff.1 h
  obtain ⟨hbare, htokens⟩ := (Document.ofTokens_eq_ok_iff.1 hd).tokens
  have hlexical := ((lex_eq_ok_iff _ _).1 hts).isLexical
  apply isWritable_of_isLexical hbare
  intro t ht
  obtain ⟨u, hu, rfl⟩ := List.mem_map.1 (htokens.subset ht)
  exact (hlexical u hu).bare

/-! ### What is read back -/

lemma isBareIfVoid_allKept {o : Layout.Options} {ns : List Node}
    (h : ∀ n ∈ Node.allParts ns, n.IsBareIfVoid o.voidTags) :
    ∀ n ∈ Node.allParts (Node.allKept o ns), n.IsBareIfVoid o.voidTags := by
  induction ns using Node.siblings_induction with
  | nil => exact Node.forall_parts_nil
  | text content rest ih =>
    rw [Node.forall_parts_text] at h
    rw [Node.allKept_text, Node.forall_parts_text]
    exact ⟨trivial, ih h.2⟩
  | comment content rest ih =>
    rw [Node.forall_parts_comment] at h
    rw [Node.allKept_comment]
    split
    · exact ih h.2
    · rw [Node.forall_parts_comment]
      exact ⟨trivial, ih h.2⟩
  | element tag attributes children rest ihchildren ih =>
    obtain ⟨hself, hchildren, hrest⟩ := Node.forall_parts_element.1 h
    rw [Node.allKept_element, Node.forall_parts_element]
    refine ⟨?_, ihchildren hchildren, ih hrest⟩
    intro htag
    rw [hself htag, Node.allKept]

lemma map_bare_head (tag : String) (as : List Attribute) :
    (headTokens tag as).map Token.bare = headTokens tag as := by
  have has : (as.flatMap Attribute.tokens).map Token.bare = as.flatMap Attribute.tokens := by
    induction as with
    | nil => rfl
    | cons a as ih =>
      rw [List.flatMap_cons, List.map_append, ih]
      rfl
  rw [headTokens, startTokens, List.map_append, List.map_cons, List.map_cons, has]
  rfl

/-- The grammar gives no values to symbols. -/
lemma map_bare_allTokens (tags : List String) (ns : List Node) :
    (Node.allTokens tags ns).map Token.bare = Node.allTokens tags ns := by
  induction ns using Node.siblings_induction with
  | nil => rfl
  | text content rest ih | comment content rest ih =>
    rw [Node.allTokens, List.map_append, ih]
    rfl
  | element tag attributes children rest ihchildren ih =>
    rw [Node.allTokens, List.map_append, ih, Node.tokens]
    split
    · rw [map_bare_head]
    · rw [openingTokens, List.map_append, List.map_append, List.map_append, map_bare_head,
        ihchildren]
      rfl

/-- The canonical source of a writable tree is read back as what it keeps of the tree. -/
lemma ofSource_layout {o : Layout.Options} {d : Document}
    (h : ∀ n ∈ d.parts, n.IsWritable o.voidTags) :
    Document.ofSource o.voidTags (d.layout o) = .ok (d.kept o) := by
  have hlexes : Lexes (d.layout o).toList ((d.kept o).tokens o.voidTags) := by
    rw [Document.layout, String.toList_ofList]
    exact lexes_allLines h 0
  have hbare : ∀ n ∈ d.parts, n.IsBareIfVoid o.voidTags := by
    intro n hn
    exact (h n hn).isBareIfVoid
  have hspelled : (d.kept o).Spelled o.voidTags ((d.kept o).tokens o.voidTags) :=
    ⟨isBareIfVoid_allKept hbare, map_bare_allTokens _ _⟩
  exact ofSource_eq_ok_iff.2 ⟨_, (lex_eq_ok_iff _ _).2 hlexes, hspelled.ofTokens⟩

lemma dropReturn_eq_self_iff (line : List Char) :
    dropReturn line = line ↔ line.getLast? ≠ some '\r' := by
  unfold dropReturn
  split
  · rename_i h
    constructor
    · intro hline
      have hlength := congrArg List.length hline
      rw [List.length_dropLast] at hlength
      obtain rfl : line = [] := List.eq_nil_of_length_eq_zero (by omega)
      cases h
    · intro hne
      exact absurd h hne
  · rename_i h
    simp [h]

/-- Where comments are shown, everything is kept exactly if no comment ends in a carriage return. -/
lemma allKept_eq_self_iff {o : Layout.Options} (ho : o.ignoreComments = false) (ns : List Node) :
    Node.allKept o ns = ns ↔ ∀ n ∈ Node.allParts ns, ¬n.EndsInReturn := by
  induction ns using Node.siblings_induction with
  | nil => simp [Node.allKept, Node.allParts]
  | text content rest ih =>
    simp [Node.EndsInReturn, ih]
  | comment content rest ih =>
    have hcontent : String.ofList (dropReturn content.toList) = content ↔
        content.toList.getLast? ≠ some '\r' := by
      rw [← dropReturn_eq_self_iff, ← String.toList_inj, String.toList_ofList]
    simp [ho, Node.EndsInReturn, ih, hcontent]
  | element tag attributes children rest ihchildren ih =>
    simp [Node.EndsInReturn, ihchildren, ih]

/-- A tree is read back from its canonical source, comments and all, exactly if its strings can stand
in a source text, elements without a body have no children, and no comment ends in a carriage
return. -/
theorem layout_read_back_iff (tags : List String) (indent : Indent) (d : Document) :
    Document.ofSource tags (d.layout ⟨indent, false, tags⟩) = .ok d ↔
      ∀ n ∈ d.parts, n.IsWritable tags ∧ ¬n.EndsInReturn := by
  let o : Layout.Options := ⟨indent, false, tags⟩
  have hkept : d.kept o = d ↔ ∀ n ∈ d.parts, ¬n.EndsInReturn := by
    obtain ⟨ns⟩ := d
    rw [Document.kept, Document.mk.injEq]
    exact allKept_eq_self_iff rfl ns
  constructor
  · intro h
    have hwritable := isWritable_of_ofSource h
    have hback : Document.ofSource tags (d.layout o) = .ok (d.kept o) := ofSource_layout hwritable
    rw [h] at hback
    have hreturn := hkept.1 (Except.ok.inj hback).symm
    intro n hn
    exact ⟨hwritable n hn, hreturn n hn⟩
  · intro h
    have hback : Document.ofSource tags (d.layout o) = .ok (d.kept o) :=
      ofSource_layout (fun n hn => (h n hn).1)
    rw [hkept.2 (fun n hn => (h n hn).2)] at hback
    exact hback

end TagCall
