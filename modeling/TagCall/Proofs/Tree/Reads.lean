import TagCall.Proofs.Tree.Grammar

/-!
# Which tokens are read as which nodes

A sequence of nodes ends at the first attempt that fails, and the tokens of that attempt are gone.
`Reads` says so without the reader, and every run of the reader is one of `Reads` and the other way
round (`runReads`, `nodes_of_reads`).
-/

namespace TagCall

open Grammar

namespace Read

/-- Whole attributes are taken as long as one stands in front. -/
def StartsAttribute (ts : List Token) : Prop :=
  ∃ key e value rest, ts = ⟨.name, key⟩ :: ⟨.equals, e⟩ :: ⟨.text, value⟩ :: rest

/-- What is taken where a token of the given kind is needed and none stands: one token of another
kind, or nothing at the end of the input. -/
def Stray (kind : Kind) (stray after : List Token) : Prop :=
  (∃ t, stray = [t] ∧ t.kind ≠ kind) ∨ stray = [] ∧ after = []

/-- `Reads tags ns kept trail after`: the tokens `kept` spell the nodes `ns`, and `trail` is what an
attempt at one more node takes before it fails, where `after` follows. An attempt takes the tokens of
an element up to the first one that does not fit, and that one too. It takes nothing where no node
can start. -/
inductive Reads (tags : List String) :
    List Node → List Token → List Token → List Token → Prop where
  | stop {after : List Token} :
    (∀ t ∈ after.head?, t.kind ∉ Kind.nodeStart) → Reads tags [] [] [] after
  | text {content : String} {ns : List Node} {kept trail after : List Token} :
    Reads tags ns kept trail after →
      Reads tags (.text content :: ns) (⟨.text, content⟩ :: kept) trail after
  | comment {content : String} {ns : List Node} {kept trail after : List Token} :
    Reads tags ns kept trail after →
      Reads tags (.comment content :: ns) (⟨.comment, content⟩ :: kept) trail after
  | void {tag : String} {attributes : List Attribute} {ns : List Node}
      {head kept trail after : List Token} :
    tag ∈ tags → head.map Token.bare = headTokens tag attributes →
      Reads tags ns kept trail after →
      Reads tags (.element tag attributes [] :: ns) (head ++ kept) trail after
  | element {tag : String} {attributes : List Attribute} {children ns : List Node} {close : Token}
      {opening inner innerTrail kept trail after : List Token} :
    tag ∉ tags → opening.map Token.bare = openingTokens tag attributes →
      Reads tags children inner innerTrail (close :: (kept ++ (trail ++ after))) →
      close.kind = .closeBrace → Reads tags ns kept trail after →
      Reads tags (.element tag attributes children :: ns)
        (opening ++ (inner ++ (innerTrail ++ close :: kept))) trail after
  | noOpenParen {tag : String} {stray after : List Token} :
    Stray .openParen stray after → Reads tags [] [] (⟨.name, tag⟩ :: stray) after
  | noCloseParen {tag : String} {attributes : List Attribute} {start stray after : List Token} :
    start.map Token.bare = startTokens tag attributes → ¬StartsAttribute (stray ++ after) →
      Stray .closeParen stray after → Reads tags [] [] (start ++ stray) after
  | noOpenBrace {tag : String} {attributes : List Attribute} {head stray after : List Token} :
    tag ∉ tags → head.map Token.bare = headTokens tag attributes →
      Stray .openBrace stray after → Reads tags [] [] (head ++ stray) after
  | noCloseBrace {tag : String} {attributes : List Attribute} {children : List Node}
      {opening inner innerTrail stray after : List Token} :
    tag ∉ tags → opening.map Token.bare = openingTokens tag attributes →
      Reads tags children inner innerTrail (stray ++ after) → Stray .closeBrace stray after →
      Reads tags [] [] (opening ++ (inner ++ (innerTrail ++ stray))) after

/-! ### One reader after another -/

lemma expect_of_kind {kind : Kind} {t : Token} (h : t.kind = kind) (rest : List Token) :
    expect kind (t :: rest) = ⟨.ok (), rest⟩ := by
  simp [expect, h]

lemma expect_of_stray {kind : Kind} {stray after : List Token} (h : Stray kind stray after) :
    ∃ e, expect kind (stray ++ after) = ⟨.error e, after⟩ ∧ e ≠ .notEnough Kind.nodeStart := by
  rcases h with ⟨t, rfl, hkind⟩ | ⟨rfl, rfl⟩
  · exact ⟨.unexpected [kind] t (some after), by simp [expect, hkind], by simp⟩
  · exact ⟨.notEnough [kind], rfl, by simp [Kind.nodeStart]⟩

lemma expect_cases (kind : Kind) (ts : List Token) :
    (∃ t rest, ts = t :: rest ∧ t.kind = kind) ∨
      ∃ stray rest, ts = stray ++ rest ∧ Stray kind stray rest := by
  cases ts with
  | nil => exact .inr ⟨[], [], rfl, .inr ⟨rfl, rfl⟩⟩
  | cons t rest =>
    by_cases h : t.kind = kind
    · exact .inl ⟨t, rest, rfl, h⟩
    · exact .inr ⟨[t], rest, rfl, .inl ⟨t, rfl, h⟩⟩

lemma map_bare_eq_attribute {ts more : List Token} {a : Attribute}
    (h : ts.map Token.bare = a.tokens ++ more) :
    ∃ e rest, ts = ⟨.name, a.key⟩ :: e :: ⟨.text, a.value⟩ :: rest ∧ e.kind = .equals ∧
      rest.map Token.bare = more := by
  simp only [Attribute.tokens, List.cons_append, List.nil_append, List.map_eq_cons_iff] at h
  obtain ⟨key, _, rfl, hkey, e, _, rfl, he, value, rest, rfl, hvalue, hrest⟩ := h
  rw [Token.bare_eq_valued rfl] at hkey hvalue
  rw [Token.bare_eq_symbol rfl] at he
  exact ⟨e, rest, by rw [hkey, hvalue], he, hrest⟩

lemma attributes_append {as : List Attribute} {ts rest : List Token}
    (h : ts.map Token.bare = as.flatMap Attribute.tokens) (hrest : ¬StartsAttribute rest) :
    attributes (ts ++ rest) = (as, rest) := by
  induction as generalizing ts with
  | nil =>
    obtain rfl := List.map_eq_nil_iff.1 h
    rw [List.nil_append]
    unfold attributes
    split
    · rename_i key e value more
      exact absurd ⟨key, e, value, more, rfl⟩ hrest
    · rfl
  | cons a as ih =>
    obtain ⟨⟨kind, e⟩, more, rfl, rfl, hmore⟩ := map_bare_eq_attribute h
    simp only [List.cons_append, attributes]
    rw [ih hmore]

lemma attributes_spec (ts : List Token) :
    ∃ taken, ts = taken ++ (attributes ts).2 ∧
      taken.map Token.bare = (attributes ts).1.flatMap Attribute.tokens ∧
      ¬StartsAttribute (attributes ts).2 := by
  fun_induction attributes ts with
  | case1 key e value rest more ih =>
    obtain ⟨taken, hrest, htaken, hend⟩ := ih
    refine ⟨⟨.name, key⟩ :: ⟨.equals, e⟩ :: ⟨.text, value⟩ :: taken, ?_, ?_, hend⟩
    · rw [List.cons_append, List.cons_append, List.cons_append, ← hrest]
    · rw [List.flatMap_cons, ← htaken]
      rfl
  | case2 ts h =>
    refine ⟨[], rfl, rfl, ?_⟩
    rintro ⟨key, e, value, rest, rfl⟩
    exact h key e value rest rfl

lemma map_bare_eq_start {ts : List Token} {tag : String} {as : List Attribute}
    (h : ts.map Token.bare = startTokens tag as) :
    ∃ o inside, ts = ⟨.name, tag⟩ :: o :: inside ∧ o.kind = .openParen ∧
      inside.map Token.bare = as.flatMap Attribute.tokens := by
  simp only [startTokens, List.map_eq_cons_iff] at h
  obtain ⟨name, _, rfl, hname, o, inside, rfl, ho, hinside⟩ := h
  rw [Token.bare_eq_valued rfl] at hname
  rw [Token.bare_eq_symbol rfl] at ho
  exact ⟨o, inside, by rw [hname], ho, hinside⟩

lemma map_bare_eq_append_symbol {ts first : List Token} {kind : Kind} (hkind : kind.isSymbol = true)
    (h : ts.map Token.bare = first ++ [⟨kind, ""⟩]) :
    ∃ start t, ts = start ++ [t] ∧ start.map Token.bare = first ∧ t.kind = kind := by
  obtain ⟨start, last, rfl, hstart, hlast⟩ := List.map_eq_append_iff.1 h
  obtain ⟨t, rfl, ht⟩ := List.map_eq_singleton_iff.1 hlast
  exact ⟨start, t, rfl, hstart, (Token.bare_eq_symbol hkind).1 ht⟩

lemma map_bare_append_symbol {ts first : List Token} {t : Token} {kind : Kind}
    (hkind : kind.isSymbol = true) (h : ts.map Token.bare = first) (ht : t.kind = kind) :
    (ts ++ [t]).map Token.bare = first ++ [⟨kind, ""⟩] := by
  rw [List.map_append, h, List.map_singleton, (Token.bare_eq_symbol hkind).2 ht]

/-- The start of an element is read up to its closing parenthesis, if one stands there. -/
lemma header_start (tags : List String) {tag : String} {as : List Attribute}
    {start rest : List Token} (h : start.map Token.bare = startTokens tag as)
    (hrest : ¬StartsAttribute rest) :
    header tags (start ++ rest) =
      match expect .closeParen rest with
      | ⟨.error e, rest⟩ => ⟨.error e, rest⟩
      | ⟨.ok (), rest⟩ =>
        if tag ∈ tags then ⟨.ok (.leaf (.element tag as [])), rest⟩
        else
          match expect .openBrace rest with
          | ⟨.error e, rest⟩ => ⟨.error e, rest⟩
          | ⟨.ok (), rest⟩ => ⟨.ok (.body tag as), rest⟩ := by
  obtain ⟨o, inside, rfl, ho, hinside⟩ := map_bare_eq_start h
  simp only [List.cons_append, header, elementHeader]
  rw [expect_of_kind ho]
  simp only
  have hattributes := attributes_append hinside hrest
  generalize attributes (inside ++ rest) = read at hattributes ⊢
  subst hattributes
  rfl

lemma not_startsAttribute_of_kind {t : Token} {rest : List Token} (h : t.kind ≠ .name) :
    ¬StartsAttribute (t :: rest) := by
  rintro ⟨key, e, value, more, heq⟩
  obtain ⟨rfl, -⟩ := List.cons.inj heq
  exact h rfl

lemma header_head (tags : List String) {tag : String} {as : List Attribute} {head : List Token}
    (h : head.map Token.bare = headTokens tag as) (rest : List Token) :
    header tags (head ++ rest) =
      if tag ∈ tags then ⟨.ok (.leaf (.element tag as [])), rest⟩
      else
        match expect .openBrace rest with
        | ⟨.error e, rest⟩ => ⟨.error e, rest⟩
        | ⟨.ok (), rest⟩ => ⟨.ok (.body tag as), rest⟩ := by
  obtain ⟨start, close, rfl, hstart, hclose⟩ := map_bare_eq_append_symbol rfl h
  rw [List.append_assoc, List.singleton_append,
    header_start tags hstart (not_startsAttribute_of_kind (by simp [hclose])), expect_of_kind hclose]

lemma header_opening {tags : List String} {tag : String} {as : List Attribute}
    {opening : List Token} (htag : tag ∉ tags)
    (h : opening.map Token.bare = openingTokens tag as) (rest : List Token) :
    header tags (opening ++ rest) = ⟨.ok (.body tag as), rest⟩ := by
  obtain ⟨head, brace, rfl, hhead, hbrace⟩ := map_bare_eq_append_symbol rfl h
  rw [List.append_assoc, List.singleton_append, header_head tags hhead, if_neg htag,
    expect_of_kind hbrace]

/-- What the start of a node takes: a whole node, an element up to its brace, or the trail of an
attempt. -/
inductive HeaderReads (tags : List String) : List Token → Attempt Header → Prop where
  | leaf {n : Node} {taken rest : List Token} :
    (∀ ns kept trail after, Reads tags ns kept trail after →
        Reads tags (n :: ns) (taken ++ kept) trail after) →
      HeaderReads tags (taken ++ rest) ⟨.ok (.leaf n), rest⟩
  | body {tag : String} {attributes : List Attribute} {opening rest : List Token} :
    tag ∉ tags → opening.map Token.bare = openingTokens tag attributes →
      HeaderReads tags (opening ++ rest) ⟨.ok (.body tag attributes), rest⟩
  | error {e : ReadError} {trail rest : List Token} :
    Reads tags [] [] trail rest →
      (e = .notEnough Kind.nodeStart ↔ trail = [] ∧ rest = []) →
      HeaderReads tags (trail ++ rest) ⟨.error e, rest⟩

lemma ne_nil_of_map_bare {ts more : List Token} {t : Token} (h : ts.map Token.bare = t :: more) :
    ts ≠ [] := by
  rintro rfl
  cases h

/-- An attempt that takes something fails for another reason than the want of a node. -/
lemma HeaderReads.failed {tags : List String} {e : ReadError} {trail rest : List Token}
    (h : Reads tags [] [] trail rest) (he : e ≠ .notEnough Kind.nodeStart) (htrail : trail ≠ []) :
    HeaderReads tags (trail ++ rest) ⟨.error e, rest⟩ := by
  apply HeaderReads.error h
  constructor
  · intro heq
    exact absurd heq he
  · intro hend
    exact absurd hend.1 htrail

lemma headerReads_head (tags : List String) {tag : String} {as : List Attribute}
    {head : List Token} (h : head.map Token.bare = headTokens tag as) (rest : List Token) :
    HeaderReads tags (head ++ rest) (header tags (head ++ rest)) := by
  rw [header_head tags h]
  by_cases htag : tag ∈ tags
  · rw [if_pos htag]
    refine .leaf ?_
    intro ns kept trail after hreads
    exact .void htag h hreads
  · rw [if_neg htag]
    rcases expect_cases .openBrace rest with ⟨o, rest, rfl, ho⟩ | ⟨stray, rest, rfl, hstray⟩
    · have hopening : (head ++ [o]).map Token.bare = openingTokens tag as :=
        map_bare_append_symbol rfl h ho
      rw [expect_of_kind ho, ← List.singleton_append, ← List.append_assoc]
      exact .body htag hopening
    · obtain ⟨e, he, hne⟩ := expect_of_stray hstray
      have htrail : head ++ stray ≠ [] := by
        simp [ne_nil_of_map_bare h]
      rw [he, ← List.append_assoc]
      exact .failed (.noOpenBrace htag h hstray) hne htrail

lemma headerReads_start {tags : List String} {tag : String} {as : List Attribute}
    {start rest : List Token} (h : start.map Token.bare = startTokens tag as)
    (hrest : ¬StartsAttribute rest) :
    HeaderReads tags (start ++ rest) (header tags (start ++ rest)) := by
  rcases expect_cases .closeParen rest with ⟨close, rest, rfl, hclose⟩ | ⟨stray, rest, rfl, hstray⟩
  · have hhead : (start ++ [close]).map Token.bare = headTokens tag as :=
      map_bare_append_symbol rfl h hclose
    have hreads := headerReads_head tags hhead rest
    rwa [List.append_assoc, List.singleton_append] at hreads
  · obtain ⟨e, he, hne⟩ := expect_of_stray hstray
    have htrail : start ++ stray ≠ [] := by
      simp [ne_nil_of_map_bare h]
    rw [header_start tags h hrest, he, ← List.append_assoc]
    exact .failed (.noCloseParen h hrest hstray) hne htrail

lemma headerReads_name (tags : List String) (tag : String) (ts : List Token) :
    HeaderReads tags (⟨.name, tag⟩ :: ts) (header tags (⟨.name, tag⟩ :: ts)) := by
  rcases expect_cases .openParen ts with ⟨o, ts, rfl, ho⟩ | ⟨stray, rest, rfl, hstray⟩
  · obtain ⟨inside, hts, hinside, hend⟩ := attributes_spec ts
    have hstart : (⟨.name, tag⟩ :: o :: inside).map Token.bare =
        startTokens tag (attributes ts).1 := by
      rw [List.map_cons, List.map_cons, hinside, (Token.bare_eq_symbol rfl).2 ho]
      rfl
    rw [hts]
    exact headerReads_start hstart hend
  · obtain ⟨e, he, hne⟩ := expect_of_stray hstray
    have hheader : header tags (⟨.name, tag⟩ :: (stray ++ rest)) = ⟨.error e, rest⟩ := by
      simp only [header, elementHeader, he]
    rw [hheader, ← List.cons_append]
    exact .failed (.noOpenParen hstray) hne (List.cons_ne_nil _ _)

lemma header_of_not_nodeStart (tags : List String) {ts : List Token}
    (h : ∀ t ∈ ts.head?, t.kind ∉ Kind.nodeStart) :
    ∃ e, header tags ts = ⟨.error e, ts⟩ ∧ (e = .notEnough Kind.nodeStart ↔ ts = []) := by
  rcases ts with - | ⟨t, rest⟩
  · exact ⟨.notEnough Kind.nodeStart, rfl, by simp⟩
  · refine ⟨.unexpected Kind.nodeStart t (some (t :: rest)), ?_, by simp⟩
    have hkind := h t rfl
    unfold header
    cases hk : t.kind <;> simp_all [Kind.nodeStart]

lemma headerReads_of_not_nodeStart {tags : List String} {ts : List Token}
    (h : ∀ t ∈ ts.head?, t.kind ∉ Kind.nodeStart) : HeaderReads tags ts (header tags ts) := by
  obtain ⟨e, hheader, he⟩ := header_of_not_nodeStart tags h
  have hstop : Reads tags [] [] [] ts := .stop h
  rw [hheader]
  exact .error hstop (by simpa using he)

lemma headerReads (tags : List String) (ts : List Token) : HeaderReads tags ts (header tags ts) := by
  rcases ts with - | ⟨⟨kind, value⟩, rest⟩
  · exact headerReads_of_not_nodeStart (by simp)
  · cases kind with
    | text =>
      change HeaderReads tags ([⟨.text, value⟩] ++ rest) ⟨.ok (.leaf (.text value)), rest⟩
      exact .leaf fun _ _ _ _ h => .text h
    | comment =>
      change HeaderReads tags ([⟨.comment, value⟩] ++ rest) ⟨.ok (.leaf (.comment value)), rest⟩
      exact .leaf fun _ _ _ _ h => .comment h
    | name => exact headerReads_name tags value rest
    | _ => exact headerReads_of_not_nodeStart (by simp [Kind.nodeStart])

/-! ### Nodes one after another -/

lemma nodes_of_error {tags : List String} {ts rest : List Token} {e : ReadError}
    (h : header tags ts = ⟨.error e, rest⟩) : nodes tags ts = ⟨[], e, rest⟩ := by
  rw [nodes_eq, node, h]

lemma nodes_of_leaf {tags : List String} {ts rest : List Token} {n : Node}
    (h : header tags ts = ⟨.ok (.leaf n), rest⟩) :
    nodes tags ts =
      ⟨n :: (nodes tags rest).nodes, (nodes tags rest).stop, (nodes tags rest).rest⟩ := by
  rw [nodes_eq, node, h]

lemma nodes_of_closed_body {tags : List String} {ts rest after : List Token} {close : Token}
    {tag : String} {as : List Attribute} (h : header tags ts = ⟨.ok (.body tag as), rest⟩)
    (hrest : (nodes tags rest).rest = close :: after) (hclose : close.kind = .closeBrace) :
    nodes tags ts =
      ⟨.element tag as (nodes tags rest).nodes :: (nodes tags after).nodes,
        (nodes tags after).stop, (nodes tags after).rest⟩ := by
  rw [nodes_eq, node, h]
  simp only [hrest, expect_of_kind hclose]

lemma nodes_of_open_body {tags : List String} {ts rest stray after : List Token} {tag : String}
    {as : List Attribute} (h : header tags ts = ⟨.ok (.body tag as), rest⟩)
    (hrest : (nodes tags rest).rest = stray ++ after) (hstray : Stray .closeBrace stray after) :
    ∃ e, nodes tags ts = ⟨[], e, after⟩ ∧ e ≠ .notEnough Kind.nodeStart := by
  obtain ⟨e, he, hne⟩ := expect_of_stray hstray
  refine ⟨e, ?_, hne⟩
  rw [nodes_eq, node, h]
  simp only [hrest, he]

/-- A run takes what the relation says, and it ends for want of a node exactly if it has come to the
end of the input without a trail. -/
def RunReads (tags : List String) (ts : List Token) (r : Run) : Prop :=
  ∃ kept trail, ts = kept ++ (trail ++ r.rest) ∧ Reads tags r.nodes kept trail r.rest ∧
    (r.stop = .notEnough Kind.nodeStart ↔ trail = [] ∧ r.rest = [])

lemma runReads_leaf {tags : List String} {n : Node} {taken rest : List Token}
    (hheader : header tags (taken ++ rest) = ⟨.ok (.leaf n), rest⟩)
    (hreads : ∀ ns kept trail after, Reads tags ns kept trail after →
      Reads tags (n :: ns) (taken ++ kept) trail after)
    (hrest : RunReads tags rest (nodes tags rest)) :
    RunReads tags (taken ++ rest) (nodes tags (taken ++ rest)) := by
  obtain ⟨kept, trail, hkept, hmore, hstop⟩ := hrest
  rw [nodes_of_leaf hheader]
  refine ⟨taken ++ kept, trail, ?_, hreads _ _ _ _ hmore, hstop⟩
  rw [List.append_assoc, ← hkept]

/-- A body that is closed is kept, with the trail in front of its brace. A body that is not becomes
part of a trail. -/
lemma runReads_body {tags : List String} {tag : String} {as : List Attribute}
    {opening rest : List Token} (htag : tag ∉ tags)
    (hopening : opening.map Token.bare = openingTokens tag as)
    (hrest : RunReads tags rest (nodes tags rest))
    (hafter : ∀ close after, (nodes tags rest).rest = close :: after →
      RunReads tags after (nodes tags after)) :
    RunReads tags (opening ++ rest) (nodes tags (opening ++ rest)) := by
  have hheader := header_opening htag hopening rest
  obtain ⟨inner, innerTrail, hsplit, hinner, -⟩ := hrest
  generalize hrun : nodes tags rest = r at hsplit hinner hafter
  rcases expect_cases .closeBrace r.rest with ⟨close, after, hr, hclose⟩ | ⟨stray, after, hr, hstray⟩
  · obtain ⟨kept, trail, hkept, hmore, hstop⟩ := hafter close after hr
    rw [hr, hkept] at hinner
    rw [nodes_of_closed_body hheader (hrun ▸ hr) hclose, hrun]
    refine ⟨opening ++ (inner ++ (innerTrail ++ close :: kept)), trail, ?_,
      .element htag hopening hinner hclose hmore, hstop⟩
    rw [hsplit, hr]
    nth_rewrite 1 [hkept]
    simp only [List.append_assoc, List.cons_append]
  · obtain ⟨e, hnodes, hne⟩ := nodes_of_open_body hheader (hrun ▸ hr) hstray
    rw [hr] at hinner
    rw [hnodes]
    refine ⟨[], opening ++ (inner ++ (innerTrail ++ stray)), ?_,
      .noCloseBrace htag hopening hinner hstray, by simp [hne, ne_nil_of_map_bare hopening]⟩
    rw [hsplit, hr]
    simp only [List.nil_append, List.append_assoc]

/-- Every run of the reader takes what the relation says. -/
lemma runReads (tags : List String) (ts : List Token) : RunReads tags ts (nodes tags ts) := by
  -- What stands behind a closed body is no part of the body, so the length carries the induction.
  induction hlength : ts.length using Nat.strongRecOn generalizing ts with
  | ind length ih =>
    subst hlength
    have hheader := headerReads tags ts
    generalize hattempt : header tags ts = attempt at hheader
    cases hheader with
    | @leaf n taken rest hreads =>
      have hshorter := header_length_lt hattempt
      exact runReads_leaf hattempt hreads (ih _ hshorter rest rfl)
    | @body tag as opening rest htag hopening =>
      have hshorter := header_length_lt hattempt
      refine runReads_body htag hopening (ih _ hshorter rest rfl) ?_
      intro close after hr
      have hleft := nodes_length tags rest
      rw [hr, List.length_cons] at hleft
      exact ih _ (by omega) after rfl
    | error hreads hstop =>
      rw [nodes_of_error hattempt]
      exact ⟨[], _, rfl, hreads, hstop⟩

/-- What the relation says is what a run of the reader takes. -/
lemma nodes_of_reads {tags : List String} {ns : List Node} {kept trail after : List Token}
    (h : Reads tags ns kept trail after) :
    ∃ e, nodes tags (kept ++ (trail ++ after)) = ⟨ns, e, after⟩ ∧
      (e = .notEnough Kind.nodeStart ↔ trail = [] ∧ after = []) := by
  induction h with
  | stop hafter =>
    obtain ⟨e, hheader, he⟩ := header_of_not_nodeStart tags hafter
    exact ⟨e, nodes_of_error hheader, by simpa using he⟩
  | @text content ns kept trail after _ ih | @comment content ns kept trail after _ ih =>
    obtain ⟨e, hnodes, he⟩ := ih
    refine ⟨e, ?_, he⟩
    rw [List.cons_append, nodes_of_leaf rfl, hnodes]
  | @void tag as ns head kept trail after htag hhead _ ih =>
    obtain ⟨e, hnodes, he⟩ := ih
    refine ⟨e, ?_, he⟩
    have hheader := header_head tags hhead (kept ++ (trail ++ after))
    rw [if_pos htag] at hheader
    rw [List.append_assoc, nodes_of_leaf hheader, hnodes]
  | @element tag as children ns close opening inner innerTrail kept trail after htag hopening _
      hclose _ ihinner ih =>
    obtain ⟨_, hinner, -⟩ := ihinner
    obtain ⟨e, hnodes, he⟩ := ih
    refine ⟨e, ?_, he⟩
    simp only [List.append_assoc, List.cons_append]
    have hheader := header_opening htag hopening
      (inner ++ (innerTrail ++ close :: (kept ++ (trail ++ after))))
    rw [nodes_of_closed_body hheader (congrArg Run.rest hinner) hclose, hinner, hnodes]
  | @noOpenParen tag stray after hstray =>
    obtain ⟨e, he, hne⟩ := expect_of_stray hstray
    have hheader : header tags (⟨.name, tag⟩ :: (stray ++ after)) = ⟨.error e, after⟩ := by
      simp only [header, elementHeader, he]
    exact ⟨e, nodes_of_error hheader, by simpa using hne⟩
  | @noCloseParen tag as start stray after hstart hend hstray =>
    obtain ⟨e, he, hne⟩ := expect_of_stray hstray
    have hheader := header_start tags hstart hend
    rw [he, ← List.append_assoc] at hheader
    exact ⟨e, nodes_of_error hheader, by simp [hne, ne_nil_of_map_bare hstart]⟩
  | @noOpenBrace tag as head stray after htag hhead hstray =>
    obtain ⟨e, he, hne⟩ := expect_of_stray hstray
    have hheader := header_head tags hhead (stray ++ after)
    rw [if_neg htag, he, ← List.append_assoc] at hheader
    exact ⟨e, nodes_of_error hheader, by simp [hne, ne_nil_of_map_bare hhead]⟩
  | @noCloseBrace tag as children opening inner innerTrail stray after htag hopening _ hstray
      ihinner =>
    obtain ⟨_, hinner, -⟩ := ihinner
    have hheader := header_opening htag hopening (inner ++ (innerTrail ++ (stray ++ after)))
    obtain ⟨e, hnodes, hne⟩ := nodes_of_open_body hheader (congrArg Run.rest hinner) hstray
    refine ⟨e, ?_, by simp [hne, ne_nil_of_map_bare hopening]⟩
    simpa only [List.append_assoc, List.nil_append] using hnodes

end Read

end TagCall
