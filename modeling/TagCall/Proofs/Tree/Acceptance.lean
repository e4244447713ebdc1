import TagCall.Proofs.Tree.Reads

/-!
# What is accepted as a document

The tokens of an accepted document are those of the grammar, with the trails of abandoned attempts in
front of closing braces. A list of tokens that the grammar gives to a tree is accepted as that tree.
-/

namespace TagCall

open Grammar

namespace Read

/-- The tokens of the grammar are read as the nodes they spell, whatever follows. -/
lemma reads_append {tags : List String} {ns ms : List Node} {ts kept trail after : List Token}
    (hbare : ∀ n ∈ Node.allParts ns, n.IsBareIfVoid tags)
    (hts : ts.map Token.bare = Node.allTokens tags ns) (h : Reads tags ms kept trail after) :
    Reads tags (ns ++ ms) (ts ++ kept) trail after := by
  induction ns using Node.siblings_induction generalizing ts ms kept trail after with
  | nil =>
    obtain rfl := List.map_eq_nil_iff.1 hts
    exact h
  | text content rest ih =>
    rw [Node.forall_parts_text] at hbare
    obtain ⟨t, more, rfl, ht, hmore⟩ := List.map_eq_cons_iff.1 hts
    rw [(Token.bare_eq_valued rfl).1 ht]
    exact .text (ih hbare.2 hmore h)
  | comment content rest ih =>
    rw [Node.forall_parts_comment] at hbare
    obtain ⟨t, more, rfl, ht, hmore⟩ := List.map_eq_cons_iff.1 hts
    rw [(Token.bare_eq_valued rfl).1 ht]
    exact .comment (ih hbare.2 hmore h)
  | element tag attributes children rest ihchildren ih =>
    obtain ⟨hself, hchildren, hrest⟩ := Node.forall_parts_element.1 hbare
    rw [Node.allTokens, Node.tokens] at hts
    obtain ⟨own, more, rfl, hown, hmore⟩ := List.map_eq_append_iff.1 hts
    have hkept := ih hrest hmore h
    by_cases htag : tag ∈ tags
    · obtain rfl : children = [] := hself htag
      rw [if_pos htag] at hown
      rw [List.append_assoc]
      exact .void htag hown hkept
    · rw [if_neg htag] at hown
      obtain ⟨opening, body, rfl, hopening, hbody⟩ := List.map_eq_append_iff.1 hown
      obtain ⟨inner, close, rfl, hinner, hclose⟩ := map_bare_eq_append_symbol rfl hbody
      have hstop : Reads tags [] [] [] (close :: (more ++ kept ++ (trail ++ after))) :=
        .stop (by simp [hclose, Kind.nodeStart])
      have hinside := ihchildren hchildren hinner hstop
      rw [List.append_nil, List.append_nil] at hinside
      have helement := Reads.element htag hopening hinside hclose hkept
      simpa only [List.append_assoc, List.cons_append, List.nil_append] using helement

/-- Elements without a body are read without children, and every token of the grammar is there. -/
lemma Reads.tokens {tags : List String} {ns : List Node} {kept trail after : List Token}
    (h : Reads tags ns kept trail after) :
    (∀ n ∈ Node.allParts ns, n.IsBareIfVoid tags) ∧
      (Node.allTokens tags ns).Sublist (kept.map Token.bare) := by
  induction h with
  | stop | noOpenParen | noCloseParen | noOpenBrace | noCloseBrace =>
    exact ⟨Node.forall_parts_nil, List.nil_sublist _⟩
  | text _ ih =>
    rw [Node.forall_parts_text]
    exact ⟨⟨trivial, ih.1⟩, ih.2.cons_cons _⟩
  | comment _ ih =>
    rw [Node.forall_parts_comment]
    exact ⟨⟨trivial, ih.1⟩, ih.2.cons_cons _⟩
  | void htag hhead _ ih =>
    rw [Node.forall_parts_element, Node.allTokens, Node.tokens, if_pos htag, List.map_append,
      hhead]
    exact ⟨⟨fun _ => rfl, Node.forall_parts_nil, ih.1⟩, ih.2.append_left _⟩
  | @element tag as children ns close opening inner innerTrail kept trail after htag hopening _
      hclose _ ihinner ih =>
    rw [Node.forall_parts_element, Node.allTokens, Node.tokens, if_neg htag]
    refine ⟨⟨fun h => absurd h htag, ihinner.1, ih.1⟩, ?_⟩
    have hbrace : close.bare = ⟨.closeBrace, ""⟩ := (Token.bare_eq_symbol rfl).2 hclose
    simp only [List.map_append, List.map_cons, hopening, hbrace, List.append_assoc,
      List.singleton_append]
    refine List.Sublist.append_left ?_ _
    refine ihinner.2.append ?_
    exact (ih.2.cons_cons _).trans (List.sublist_append_right _ _)

end Read

/-- Elements whose tag allows no body have no children, and the tokens are those of the grammar. -/
def Document.Spelled (tags : List String) (ts : List Token) (d : Document) : Prop :=
  (∀ n ∈ d.parts, n.IsBareIfVoid tags) ∧ ts.map Token.bare = d.tokens tags

lemma Document.ofTokens_eq_ok_iff {tags : List String} {ts : List Token} {d : Document} :
    Document.ofTokens tags ts = .ok d ↔ Read.Reads tags d.nodes ts [] [] := by
  unfold Document.ofTokens Read.document
  constructor
  · intro h
    obtain ⟨kept, trail, hts, hreads, hstop⟩ := Read.runReads tags ts
    by_cases hend : (Read.nodes tags ts).rest = [] ∧
        (Read.nodes tags ts).stop = .notEnough Kind.nodeStart
    · obtain ⟨rfl, hrest⟩ := hstop.1 hend.2
      simp only [if_pos hend, Except.ok.injEq] at h
      rw [hrest, List.append_nil, List.append_nil] at hts
      rw [hrest, ← hts] at hreads
      rw [← h]
      exact hreads
    · simp only [if_neg hend] at h
      cases h
  · intro h
    obtain ⟨e, hnodes, he⟩ := Read.nodes_of_reads h
    rw [List.append_nil, List.append_nil] at hnodes
    simp only [hnodes, he.2 ⟨rfl, rfl⟩, true_and, if_true]

lemma Document.Spelled.ofTokens {tags : List String} {ts : List Token} {d : Document}
    (h : d.Spelled tags ts) : Document.ofTokens tags ts = .ok d := by
  have hstop : Read.Reads tags [] [] [] [] := .stop (by simp)
  have hreads := Read.reads_append h.1 h.2 hstop
  rw [List.append_nil, List.append_nil] at hreads
  exact Document.ofTokens_eq_ok_iff.2 hreads

/-- A list of tokens is accepted as a document exactly if it is read as its nodes to the end. In an
accepted list all tokens of the grammar are there in order, and what is there besides them is trails
in front of closing braces. A list that has no trails is accepted. -/
theorem document_accepted_iff (tags : List String) (ts : List Token) (d : Document) :
    (Document.ofTokens tags ts = .ok d ↔ Read.Reads tags d.nodes ts [] []) ∧
    (Document.ofTokens tags ts = .ok d →
      (∀ n ∈ d.parts, n.IsBareIfVoid tags) ∧ (d.tokens tags).Sublist (ts.map Token.bare)) ∧
    (d.Spelled tags ts → Document.ofTokens tags ts = .ok d) := by
  refine ⟨Document.ofTokens_eq_ok_iff, ?_, Document.Spelled.ofTokens⟩
  intro h
  exact (Document.ofTokens_eq_ok_iff.1 h).tokens

/-- More is accepted than the grammar spells: an element `q` that is broken off by a brace leaves no
trace in the body of `p`. -/
theorem accepts_broken_off_child :
    ¬∀ (tags : List String) (ts : List Token) (d : Document),
      Document.ofTokens tags ts = .ok d ↔ d.Spelled tags ts := by
  intro h
  have hopening : [⟨.name, "p"⟩, ⟨.openParen, ""⟩, ⟨.closeParen, ""⟩, ⟨.openBrace, ""⟩].map
      Token.bare = openingTokens "p" [] := rfl
  have hstray : Read.Stray .openParen [⟨.closeBrace, ""⟩] [⟨.closeBrace, ""⟩] :=
    .inl ⟨_, rfl, by decide⟩
  have htrail : Read.Reads [] [] [] [⟨.name, "q"⟩, ⟨.closeBrace, ""⟩] [⟨.closeBrace, ""⟩] :=
    .noOpenParen hstray
  have hend : Read.Reads [] [] [] [] [] := .stop (by simp)
  have hreads := Read.Reads.element (by simp) hopening htrail rfl hend
  have haccepted := (Document.ofTokens_eq_ok_iff (d := ⟨[.element "p" [] []]⟩)).2 hreads
  have hspelled := ((h _ _ _).1 haccepted).2
  exact absurd (congrArg List.length hspelled) (by decide)

end TagCall
