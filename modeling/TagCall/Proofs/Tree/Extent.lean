import TagCall.Proofs.Tree.Concatenation

/-!
# How far nodes reach

The tokens of a node are taken and nothing behind them, whatever follows (`node_append`). Nodes one
after another end where no node starts, at the end of the input or at a token that stays
(`nodes_append_stop`).
-/

namespace TagCall

open Grammar

namespace Read

/-- What is told where a node could start and none does. -/
def noNode : List Token → ReadError
  | [] => .notEnough Kind.nodeStart
  | t :: rest => .unexpected Kind.nodeStart t (some (t :: rest))

variable {tags : List String} {ts rest : List Token}

lemma nodes_of_not_nodeStart (h : ∀ t ∈ rest.head?, t.kind ∉ Kind.nodeStart) :
    nodes tags rest = ⟨[], noNode rest, rest⟩ := by
  have hheader : header tags rest = ⟨.error (noNode rest), rest⟩ := by
    cases rest with
    | nil => rfl
    | cons t rest =>
      have hkind := h t rfl
      unfold header
      cases hk : t.kind <;> simp_all [noNode, Kind.nodeStart]
  exact nodes_of_error hheader

lemma nodes_append_stop {ns : List Node} (hbare : ∀ n ∈ Node.allParts ns, n.IsBareIfVoid tags)
    (hts : ts.map Token.bare = Node.allTokens tags ns)
    (hrest : ∀ t ∈ rest.head?, t.kind ∉ Kind.nodeStart) :
    nodes tags (ts ++ rest) = ⟨ns, noNode rest, rest⟩ := by
  have hend : Reads tags [] [] [] [] := .stop (by simp)
  have hreads := reads_append hbare hts hend
  rw [List.append_nil, List.append_nil] at hreads
  rw [nodes_append hreads rfl rfl, nodes_of_not_nodeStart hrest, List.append_nil]

/-- The body of an element is closed by the brace behind it, so nothing is asked of what follows. -/
lemma node_append_body {tag : String} {attributes : List Attribute} {children : List Node}
    {opening inner : List Token} {close : Token} (htag : tag ∉ tags)
    (hchildren : ∀ n ∈ Node.allParts children, n.IsBareIfVoid tags)
    (hopening : opening.map Token.bare = openingTokens tag attributes)
    (hinner : inner.map Token.bare = Node.allTokens tags children)
    (hclose : close.kind = .closeBrace) (rest : List Token) :
    node tags (opening ++ (inner ++ close :: rest)) =
      ⟨.ok (.element tag attributes children), rest⟩ := by
  have hstop : ∀ t ∈ (close :: rest).head?, t.kind ∉ Kind.nodeStart := by
    simp [hclose, Kind.nodeStart]
  rw [node, header_opening htag hopening]
  simp only [nodes_append_stop hchildren hinner hstop, expect_of_kind hclose]

lemma node_append {n : Node} (hbare : ∀ m ∈ n.parts, m.IsBareIfVoid tags)
    (hts : ts.map Token.bare = n.tokens tags) (rest : List Token) :
    node tags (ts ++ rest) = ⟨.ok n, rest⟩ := by
  cases n with
  | text content | comment content =>
    obtain ⟨t, rfl, ht⟩ := List.map_eq_singleton_iff.1 hts
    rw [(Token.bare_eq_valued rfl).1 ht]
    rfl
  | element tag attributes children =>
    rw [Node.parts, List.forall_mem_cons] at hbare
    rw [Node.tokens] at hts
    by_cases htag : tag ∈ tags
    · obtain rfl : children = [] := hbare.1 htag
      rw [if_pos htag] at hts
      rw [node, header_head tags hts, if_pos htag]
    · rw [if_neg htag] at hts
      obtain ⟨opening, body, rfl, hopening, hbody⟩ := List.map_eq_append_iff.1 hts
      obtain ⟨inner, close, rfl, hinner, hclose⟩ := map_bare_eq_append_symbol rfl hbody
      rw [List.append_assoc, List.append_assoc, List.singleton_append]
      exact node_append_body htag hbare.2 hopening hinner hclose rest

end Read

/-- The tokens that the grammar gives to a node are read as this node, with any values of symbols,
and what follows them is left as it is. So are the tokens of siblings where no node starts behind
them, and the reader stops there for want of one. -/
theorem spelled_nodes_are_read_whole (tags : List String) :
    (∀ (n : Node) (ts rest : List Token), (∀ m ∈ n.parts, m.IsBareIfVoid tags) →
      ts.map Token.bare = n.tokens tags → Read.node tags (ts ++ rest) = ⟨.ok n, rest⟩) ∧
    ∀ (ns : List Node) (ts rest : List Token), (∀ m ∈ Node.allParts ns, m.IsBareIfVoid tags) →
      ts.map Token.bare = Node.allTokens tags ns →
      (∀ t ∈ rest.head?, t.kind ∉ Kind.nodeStart) →
        Read.nodes tags (ts ++ rest) = ⟨ns, Read.noNode rest, rest⟩ :=
  ⟨fun _ _ rest hbare hts => Read.node_append hbare hts rest,
    fun _ _ _ hbare hts hrest => Read.nodes_append_stop hbare hts hrest⟩

/-- What follows a node may go on like it: the attribute behind `br()` is left, and so is a second
body. -/
theorem spelled_nodes_are_read_whole_more_behind :
    let br : Node := .element "br" [⟨"id", "a"⟩] []
    let p : Node := .element "p" [] [br, .text "b", .comment "c"]
    let brTokens : List Token := [⟨.name, "br"⟩, ⟨.openParen, "("⟩, ⟨.name, "id"⟩, ⟨.equals, ""⟩,
      ⟨.text, "a"⟩, ⟨.closeParen, ""⟩]
    let pTokens : List Token := [⟨.name, "p"⟩, ⟨.openParen, ""⟩, ⟨.closeParen, ""⟩,
      ⟨.openBrace, "["⟩] ++ brTokens ++ [⟨.text, "b"⟩, ⟨.comment, "c"⟩, ⟨.closeBrace, ""⟩]
    let more : List Token := [⟨.name, "id"⟩, ⟨.equals, ""⟩, ⟨.text, "d"⟩]
    let body : List Token := [⟨.openBrace, ""⟩, ⟨.closeBrace, ""⟩]
    Read.node ["br"] (brTokens ++ more) = ⟨.ok br, more⟩ ∧
      Read.node ["br"] (pTokens ++ body) = ⟨.ok p, body⟩ ∧
      Read.nodes ["br"] (brTokens ++ pTokens ++ body) =
        ⟨[br, p], .unexpected Kind.nodeStart ⟨.openBrace, ""⟩ (some body), body⟩ ∧
      Read.nodes ["br"] (brTokens ++ pTokens ++ []) = ⟨[br, p], .notEnough Kind.nodeStart, []⟩ := by
  intro br p brTokens pTokens more body
  obtain ⟨hnode, hnodes⟩ := spelled_nodes_are_read_whole ["br"]
  have hbr : ∀ m ∈ br.parts, m.IsBareIfVoid ["br"] := by
    simp [br, Node.parts, Node.allParts, Node.IsBareIfVoid]
  have hp : ∀ m ∈ p.parts, m.IsBareIfVoid ["br"] := by
    simp [p, br, Node.parts, Node.allParts, Node.IsBareIfVoid]
  have hall : ∀ m ∈ Node.allParts [br, p], m.IsBareIfVoid ["br"] := by
    simpa [Node.allParts, or_imp, forall_and] using ⟨hbr, hp⟩
  exact ⟨hnode br brTokens more hbr rfl, hnode p pTokens body hp rfl,
    hnodes [br, p] (brTokens ++ pTokens) body hall rfl (by decide),
    hnodes [br, p] (brTokens ++ pTokens) [] hall rfl (by decide)⟩

end TagCall
