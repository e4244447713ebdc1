import TagCall.Proofs.Tree.Extent
import TagCall.Proofs.Tree.Faults

/-!
# What reading costs

A reader leaves the end of what it was given, and a node that is read takes something. So a sequence
of nodes ends after at most one attempt more than there are tokens. A body is read only behind four
tokens of its element, so sequences are read inside one another at most once for every four tokens
(`reader_moves_forward`). For the tokens of a tree the depth is that of its bodies
(`nodesDepth_tokens`), and bodies that are never closed reach the bound (`nodesDepth_openings`).
-/

namespace TagCall

open Grammar

mutual

/-- How many bodies stand inside one another in a node, at most. -/
def Node.nesting (tags : List String) : Node → Nat
  | .element tag _ children => if tag ∈ tags then 0 else Node.allNesting tags children + 1
  | _ => 0

def Node.allNesting (tags : List String) : List Node → Nat
  | [] => 0
  | n :: rest => max (n.nesting tags) (Node.allNesting tags rest)

end

namespace Read

variable {tags : List String} {ts rest : List Token}

/-! ### Every reader leaves the end of its tokens -/

lemma Fault.suffix {e : ReadError} (h : Fault ts e rest) : rest <:+ ts := by
  cases h with
  | noSymbol _ | noNode => exact List.nil_suffix
  | otherSymbol _ _ =>
    apply (List.suffix_cons _ rest).trans
    exact List.suffix_append _ _
  | otherNode _ => exact List.suffix_append _ _

lemma node_rest_suffix (tags : List String) (ts : List Token) : (node tags ts).rest <:+ ts := by
  rcases hnode : node tags ts with ⟨e | n, rest⟩
  · exact (node_fault hnode).suffix
  · exact (node_suffix hnode).1

lemma document_rest (tags : List String) (ts : List Token) :
    (document tags ts).rest = (nodes tags ts).rest := by
  unfold document
  dsimp only
  split <;> rfl

/-- In front of a body stand a name, two parentheses and a brace at least. -/
lemma length_of_header_body {tag : String} {as : List Attribute}
    (h : header tags ts = ⟨.ok (.body tag as), rest⟩) : rest.length + 4 ≤ ts.length := by
  have hreads := headerReads tags ts
  rw [h] at hreads
  cases hreads with
  | @body _ _ opening _ _ hopening =>
    have hlength := congrArg List.length hopening
    simp only [openingTokens, headTokens, startTokens, List.length_map, List.length_append,
      List.length_cons, List.length_nil] at hlength
    rw [List.length_append]
    omega

/-! ### Attempts -/

/-- How often a node is tried to be read in a sequence of nodes, with the attempt that ends it. -/
def attempts (tags : List String) (ts : List Token) : Nat :=
  match h : node tags ts with
  | ⟨.error _, _⟩ => 1
  | ⟨.ok _, rest⟩ =>
    have := (node_suffix h).2
    attempts tags rest + 1
termination_by ts.length

lemma attempts_of_error {e : ReadError} (h : node tags ts = ⟨.error e, rest⟩) :
    attempts tags ts = 1 := by
  rw [attempts]
  split <;> simp_all

lemma attempts_of_ok {n : Node} (h : node tags ts = ⟨.ok n, rest⟩) :
    attempts tags ts = attempts tags rest + 1 := by
  rw [attempts]
  split <;> simp_all

/-- Every attempt but the last adds a node and takes a token at least. -/
lemma attempts_spec (tags : List String) (ts : List Token) :
    attempts tags ts = (nodes tags ts).nodes.length + 1 ∧
      attempts tags ts + (nodes tags ts).rest.length ≤ ts.length + 1 := by
  induction hlength : ts.length using Nat.strongRecOn generalizing ts with
  | ind length ih =>
    subst hlength
    rcases hnode : node tags ts with ⟨e | n, rest⟩
    · have hrest := (node_fault hnode).suffix.length_le
      rw [attempts_of_error hnode, nodes_eq, hnode]
      refine ⟨rfl, ?_⟩
      dsimp only
      omega
    · have hshorter := (node_suffix hnode).2
      obtain ⟨hnodes, hbound⟩ := ih _ hshorter rest rfl
      rw [attempts_of_ok hnode, nodes_eq, hnode]
      refine ⟨by simp [hnodes], ?_⟩
      dsimp only
      omega

/-! ### Depth -/

mutual

/-- How many readers of one node are at work inside one another, at most, while a node is read. An
attempt that fails counts as well. -/
def nodeDepth (tags : List String) (ts : List Token) : Nat :=
  match h : header tags ts with
  | ⟨.ok (.body _ _), rest⟩ =>
    have := header_length_lt h
    nodesDepth tags rest + 1
  | _ => 1
termination_by (ts.length, 0)

/-- How many readers of sequences are at work inside one another, at most, while a sequence is read.
Each of them tries to read nodes, so there are as many readers of one node. -/
def nodesDepth (tags : List String) (ts : List Token) : Nat :=
  match h : node tags ts with
  | ⟨.error _, _⟩ => nodeDepth tags ts
  | ⟨.ok _, rest⟩ =>
    have := (node_suffix h).2
    max (nodeDepth tags ts) (nodesDepth tags rest)
termination_by (ts.length, 1)

end

lemma nodeDepth_of_body {tag : String} {as : List Attribute}
    (h : header tags ts = ⟨.ok (.body tag as), rest⟩) :
    nodeDepth tags ts = nodesDepth tags rest + 1 := by
  rw [nodeDepth]
  split <;> simp_all

lemma nodeDepth_of_no_body
    (h : ∀ tag as rest, header tags ts ≠ ⟨.ok (.body tag as), rest⟩) : nodeDepth tags ts = 1 := by
  rw [nodeDepth]
  split
  · rename_i heq
    exact absurd heq (h _ _ _)
  · rfl

lemma nodesDepth_of_error {e : ReadError} (h : node tags ts = ⟨.error e, rest⟩) :
    nodesDepth tags ts = nodeDepth tags ts := by
  rw [nodesDepth]
  split <;> simp_all

lemma nodesDepth_of_ok {n : Node} (h : node tags ts = ⟨.ok n, rest⟩) :
    nodesDepth tags ts = max (nodeDepth tags ts) (nodesDepth tags rest) := by
  rw [nodesDepth]
  split <;> simp_all

/-- One level down there are four tokens less. -/
lemma nodeDepth_le (hshorter : ∀ us : List Token, us.length < ts.length →
    4 * nodesDepth tags us ≤ us.length + 4) : 4 * nodeDepth tags ts ≤ ts.length + 4 := by
  by_cases hbody : ∃ tag as rest, header tags ts = ⟨.ok (.body tag as), rest⟩
  · obtain ⟨tag, as, rest, hheader⟩ := hbody
    have hlength := length_of_header_body hheader
    have hinner := hshorter rest (by omega)
    rw [nodeDepth_of_body hheader]
    omega
  · rw [nodeDepth_of_no_body fun tag as rest h => hbody ⟨tag, as, rest, h⟩]
    omega

lemma nodesDepth_le (tags : List String) (ts : List Token) :
    4 * nodesDepth tags ts ≤ ts.length + 4 := by
  induction hlength : ts.length using Nat.strongRecOn generalizing ts with
  | ind length ih =>
    subst hlength
    have hfirst : 4 * nodeDepth tags ts ≤ ts.length + 4 :=
      nodeDepth_le fun us hus => ih us.length hus us rfl
    rcases hnode : node tags ts with ⟨e | n, rest⟩
    · rwa [nodesDepth_of_error hnode]
    · have hshorter := (node_suffix hnode).2
      have hmore := ih rest.length hshorter rest rfl
      rw [nodesDepth_of_ok hnode]
      omega

/-! ### The depth of a tree -/

lemma nodeDepth_of_leaf {n : Node} (h : header tags ts = ⟨.ok (.leaf n), rest⟩) :
    nodeDepth tags ts = 1 := by
  apply nodeDepth_of_no_body
  intro tag as after hbody
  rw [h] at hbody
  cases hbody

lemma nodesDepth_of_not_nodeStart (h : ∀ t ∈ rest.head?, t.kind ∉ Kind.nodeStart) :
    nodesDepth tags rest = 1 := by
  obtain ⟨e, hheader, -⟩ := header_of_not_nodeStart tags h
  have hnode : node tags rest = ⟨.error e, rest⟩ := by rw [node, hheader]
  rw [nodesDepth_of_error hnode]
  apply nodeDepth_of_no_body
  intro tag as after hbody
  rw [hheader] at hbody
  cases hbody

/-- A first node and what is behind it are read side by side. -/
lemma nodesDepth_append {n : Node} {ns : List Node} (hbare : ∀ m ∈ n.parts, m.IsBareIfVoid tags)
    (hts : ts.map Token.bare = n.tokens tags)
    (hfirst : nodeDepth tags (ts ++ rest) = n.nesting tags + 1)
    (hmore : nodesDepth tags rest = Node.allNesting tags ns + 1) :
    nodesDepth tags (ts ++ rest) = Node.allNesting tags (n :: ns) + 1 := by
  rw [nodesDepth_of_ok (node_append hbare hts rest), hfirst, hmore, Node.allNesting,
    Nat.add_max_add_right]

/-- The tokens of siblings are read at the depth of their bodies. One more reader tries what stands
behind the last node. -/
theorem nodesDepth_tokens {ns : List Node} (hbare : ∀ n ∈ Node.allParts ns, n.IsBareIfVoid tags)
    (hts : ts.map Token.bare = Node.allTokens tags ns)
    (hrest : ∀ t ∈ rest.head?, t.kind ∉ Kind.nodeStart) :
    nodesDepth tags (ts ++ rest) = Node.allNesting tags ns + 1 := by
  induction ns using Node.siblings_induction generalizing ts rest with
  | nil =>
    obtain rfl : ts = [] := List.map_eq_nil_iff.1 hts
    exact nodesDepth_of_not_nodeStart hrest
  | text content ns ih | comment content ns ih =>
    rw [Node.allParts, List.forall_mem_append] at hbare
    obtain ⟨first, more, rfl, hfirst, hmore⟩ := List.map_eq_append_iff.1 hts
    rw [List.append_assoc]
    refine nodesDepth_append hbare.1 hfirst ?_ (ih hbare.2 hmore hrest)
    obtain ⟨t, rfl, ht⟩ := List.map_eq_singleton_iff.1 hfirst
    rw [(Token.bare_eq_valued rfl).1 ht]
    exact nodeDepth_of_leaf rfl
  | element tag as children ns ihchildren ih =>
    rw [Node.allParts, List.forall_mem_append] at hbare
    obtain ⟨first, more, rfl, hfirst, hmore⟩ := List.map_eq_append_iff.1 hts
    rw [List.append_assoc]
    refine nodesDepth_append hbare.1 hfirst ?_ (ih hbare.2 hmore hrest)
    have hbody := hbare.1
    rw [Node.parts, List.forall_mem_cons] at hbody
    rw [Node.tokens] at hfirst
    rw [Node.nesting]
    by_cases htag : tag ∈ tags
    · rw [if_pos htag] at hfirst ⊢
      have hheader := header_head tags hfirst (more ++ rest)
      rw [if_pos htag] at hheader
      exact nodeDepth_of_leaf hheader
    · rw [if_neg htag] at hfirst ⊢
      obtain ⟨opening, body, rfl, hopening, hinner⟩ := List.map_eq_append_iff.1 hfirst
      obtain ⟨inner, close, rfl, hinner, hclose⟩ := map_bare_eq_append_symbol rfl hinner
      rw [List.append_assoc, List.append_assoc, List.singleton_append,
        nodeDepth_of_body (header_opening htag hopening _),
        ihchildren hbody.2 hinner (by simp [hclose, Kind.nodeStart])]

lemma nodeDepth_le_nodesDepth (tags : List String) (ts : List Token) :
    nodeDepth tags ts ≤ nodesDepth tags ts := by
  rcases hnode : node tags ts with ⟨e | n, rest⟩
  · rw [nodesDepth_of_error hnode]
  · rw [nodesDepth_of_ok hnode]
    exact Nat.le_max_left _ _

/-- Bodies that are opened one in another and never closed are as deep as any tokens of their
number can be. -/
theorem nodesDepth_openings {tag : String} (htag : tag ∉ tags) (k : Nat) :
    nodesDepth tags (List.replicate k (openingTokens tag [])).flatten = k + 1 := by
  apply Nat.le_antisymm
  · have hlength : (List.replicate k (openingTokens tag [])).flatten.length = k * 4 := by
      simp [openingTokens, headTokens, startTokens]
    have hbound := nodesDepth_le tags (List.replicate k (openingTokens tag [])).flatten
    omega
  · induction k with
    | zero => exact (nodesDepth_of_not_nodeStart (by simp)).ge
    | succ k ih =>
      have hopening : (openingTokens tag []).map Token.bare = openingTokens tag [] := rfl
      have hbody := nodeDepth_of_body (header_opening htag hopening
        (List.replicate k (openingTokens tag [])).flatten)
      have hfirst := nodeDepth_le_nodesDepth tags
        (openingTokens tag [] ++ (List.replicate k (openingTokens tag [])).flatten)
      rw [List.replicate_succ, List.flatten_cons]
      omega

/-- Every reader leaves an end of its tokens, also when it fails, and a node that is read leaves
less than there was. A body is read behind four tokens at least. So a sequence of nodes ends after
at most one attempt more than it has tokens, and readers are at work inside one another at most once
for every four tokens, and once. -/
theorem reader_moves_forward (tags : List String) (ts : List Token) :
    ((node tags ts).rest <:+ ts ∧ (nodes tags ts).rest <:+ ts ∧ (document tags ts).rest <:+ ts) ∧
    (∀ n rest, node tags ts = ⟨.ok n, rest⟩ → rest.length < ts.length) ∧
    (∀ tag as rest, header tags ts = ⟨.ok (.body tag as), rest⟩ →
      rest <:+ ts ∧ rest.length + 4 ≤ ts.length) ∧
    (attempts tags ts = (nodes tags ts).nodes.length + 1 ∧ attempts tags ts ≤ ts.length + 1) ∧
    nodeDepth tags ts ≤ ts.length / 4 + 1 ∧ nodesDepth tags ts ≤ ts.length / 4 + 1 := by
  have hnodes := nodes_suffix tags ts
  obtain ⟨hattempts, hbound⟩ := attempts_spec tags ts
  have hdepth := nodesDepth_le tags ts
  have hnodeDepth : 4 * nodeDepth tags ts ≤ ts.length + 4 :=
    nodeDepth_le fun us _ => nodesDepth_le tags us
  refine ⟨⟨node_rest_suffix tags ts, hnodes, ?_⟩, ?_, ?_, ⟨hattempts, by omega⟩, by omega, by omega⟩
  · rwa [document_rest]
  · intro n rest hnode
    exact (node_suffix hnode).2
  · intro tag as rest hheader
    exact ⟨header_suffix hheader, length_of_header_body hheader⟩

end Read

end TagCall
