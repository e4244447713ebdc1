import TagCall.Proofs.Tree.Reads

/-!
# Why tokens are no document

An error names what was needed where the reader stopped, and the tokens left then are those behind
that place. Inside a body errors are dropped, so the error of a document comes from its last
attempt at the top (`nodes_fault`), and the tokens that it tells are the ones that are left.
-/

namespace TagCall

/-- The symbols that an element needs at fixed places. -/
def Kind.elementSymbols : List Kind :=
  [openParen, closeParen, openBrace, closeBrace]

namespace Read

/-- `Fault ts e rest`: reading `ts` can stop with the error `e` where `rest` is left. A symbol that
is needed is missing at the end, or another token stands in its place and is taken. Or no node
starts where one could, at the end or at a token that stays. -/
inductive Fault : List Token → ReadError → List Token → Prop where
  | noSymbol {ts : List Token} {kind : Kind} :
    kind ∈ Kind.elementSymbols → Fault ts (.notEnough [kind]) []
  | otherSymbol {front rest : List Token} {t : Token} {kind : Kind} :
    kind ∈ Kind.elementSymbols → t.kind ≠ kind →
      Fault (front ++ t :: rest) (.unexpected [kind] t (some rest)) rest
  | noNode {ts : List Token} : Fault ts (.notEnough Kind.nodeStart) []
  | otherNode {front rest : List Token} {t : Token} :
    t.kind ∉ Kind.nodeStart →
      Fault (front ++ t :: rest) (.unexpected Kind.nodeStart t (some (t :: rest))) (t :: rest)

lemma Fault.prepend {ts rest : List Token} {e : ReadError} (h : Fault ts e rest)
    (front : List Token) : Fault (front ++ ts) e rest := by
  cases h with
  | noSymbol hkind => exact .noSymbol hkind
  | otherSymbol hkind ht =>
    rw [← List.append_assoc]
    exact .otherSymbol hkind ht
  | noNode => exact .noNode
  | otherNode ht =>
    rw [← List.append_assoc]
    exact .otherNode ht

/-! ### One reader after another -/

lemma expect_fault {kind : Kind} {ts rest : List Token} {e : ReadError}
    (hkind : kind ∈ Kind.elementSymbols) (h : expect kind ts = ⟨.error e, rest⟩) :
    Fault ts e rest := by
  cases ts with
  | nil =>
    obtain ⟨rfl, rfl⟩ : ReadError.notEnough [kind] = e ∧ [] = rest := by simpa [expect] using h
    exact .noSymbol hkind
  | cons t ts =>
    by_cases ht : t.kind = kind
    · simp [expect, ht] at h
    · obtain ⟨rfl, rfl⟩ : ReadError.unexpected [kind] t (some ts) = e ∧ ts = rest := by
        simpa [expect, ht] using h
      have hfault : Fault ([] ++ t :: ts) (.unexpected [kind] t (some ts)) ts :=
        .otherSymbol hkind ht
      exact hfault

lemma expect_suffix {kind : Kind} {ts rest : List Token} (h : expect kind ts = ⟨.ok (), rest⟩) :
    rest <:+ ts := by
  cases ts with
  | nil => simp [expect] at h
  | cons t ts =>
    by_cases ht : t.kind = kind
    · obtain rfl : ts = rest := by simpa [expect, ht] using h
      exact List.suffix_cons t ts
    · simp [expect, ht] at h

lemma Fault.of_suffix {ts us rest : List Token} {e : ReadError} (h : Fault us e rest)
    (hus : us <:+ ts) : Fault ts e rest := by
  obtain ⟨front, rfl⟩ := hus
  exact h.prepend front

lemma elementHeader_fault {tags : List String} {tag : String} {ts rest : List Token}
    {e : ReadError} (h : elementHeader tags tag ts = ⟨.error e, rest⟩) : Fault ts e rest := by
  unfold elementHeader at h
  split at h
  · rename_i e₁ rest₁ hopen
    obtain ⟨rfl, rfl⟩ : e₁ = e ∧ rest₁ = rest := by simpa using h
    exact expect_fault (by decide) hopen
  · rename_i rest₁ hopen
    have hinside : (attributes rest₁).2 <:+ ts := by
      obtain ⟨taken, hrest₁, -, -⟩ := attributes_spec rest₁
      have hbehind : (attributes rest₁).2 <:+ rest₁ := ⟨taken, hrest₁.symm⟩
      exact hbehind.trans (expect_suffix hopen)
    dsimp only at h
    split at h
    · rename_i e₂ rest₂ hclose
      obtain ⟨rfl, rfl⟩ : e₂ = e ∧ rest₂ = rest := by simpa using h
      exact (expect_fault (by decide) hclose).of_suffix hinside
    · rename_i rest₂ hclose
      have hbehind : rest₂ <:+ ts := (expect_suffix hclose).trans hinside
      split at h
      · cases h
      · split at h
        · rename_i e₃ rest₃ hbrace
          obtain ⟨rfl, rfl⟩ : e₃ = e ∧ rest₃ = rest := by simpa using h
          exact (expect_fault (by decide) hbrace).of_suffix hbehind
        · cases h

lemma header_fault {tags : List String} {ts rest : List Token} {e : ReadError}
    (h : header tags ts = ⟨.error e, rest⟩) : Fault ts e rest := by
  cases ts with
  | nil =>
    obtain ⟨rfl, rfl⟩ : ReadError.notEnough Kind.nodeStart = e ∧ [] = rest := by
      simpa [header] using h
    exact .noNode
  | cons t ts =>
    by_cases hstart : t.kind ∈ Kind.nodeStart
    · have hname : elementHeader tags t.value ts = ⟨.error e, rest⟩ := by
        unfold header at h
        cases hkind : t.kind <;> simp_all [Kind.nodeStart]
      exact (elementHeader_fault hname).prepend [t]
    · have hstop : header tags (t :: ts) =
          ⟨.error (.unexpected Kind.nodeStart t (some (t :: ts))), t :: ts⟩ := by
        unfold header
        cases hkind : t.kind <;> simp_all [Kind.nodeStart]
      rw [hstop] at h
      cases h
      have hfault : Fault ([] ++ t :: ts) (.unexpected Kind.nodeStart t (some (t :: ts)))
          (t :: ts) := .otherNode hstart
      exact hfault

lemma header_suffix {tags : List String} {ts rest : List Token} {h : Header}
    (heq : header tags ts = ⟨.ok h, rest⟩) : rest <:+ ts := by
  have hreads := headerReads tags ts
  rw [heq] at hreads
  cases hreads with
  | leaf _ => exact List.suffix_append _ _
  | body _ _ => exact List.suffix_append _ _

lemma nodes_suffix (tags : List String) (ts : List Token) : (nodes tags ts).rest <:+ ts := by
  obtain ⟨kept, trail, hts, -, -⟩ := runReads tags ts
  exact ⟨kept ++ trail, by rw [List.append_assoc, ← hts]⟩

lemma node_fault {tags : List String} {ts rest : List Token} {e : ReadError}
    (h : node tags ts = ⟨.error e, rest⟩) : Fault ts e rest := by
  unfold node at h
  split at h
  · rename_i e₁ rest₁ hheader
    obtain ⟨rfl, rfl⟩ : e₁ = e ∧ rest₁ = rest := by simpa using h
    exact header_fault hheader
  · cases h
  · rename_i tag as rest₁ hheader
    dsimp only at h
    split at h
    · rename_i e₂ rest₂ hclose
      obtain ⟨rfl, rfl⟩ : e₂ = e ∧ rest₂ = rest := by simpa using h
      have hinner := (nodes_suffix tags rest₁).trans (header_suffix hheader)
      exact (expect_fault (by decide) hclose).of_suffix hinner
    · cases h

lemma node_suffix {tags : List String} {ts rest : List Token} {n : Node}
    (h : node tags ts = ⟨.ok n, rest⟩) : rest <:+ ts ∧ rest.length < ts.length := by
  unfold node at h
  split at h
  · cases h
  · rename_i n₁ rest₁ hheader
    obtain ⟨-, rfl⟩ : n₁ = n ∧ rest₁ = rest := by simpa using h
    exact ⟨header_suffix hheader, header_length_lt hheader⟩
  · rename_i tag as rest₁ hheader
    have hlength := header_length_lt hheader
    have hinner := nodes_suffix tags rest₁
    dsimp only at h
    split at h
    · cases h
    · rename_i rest₂ hclose
      obtain ⟨-, rfl⟩ : _ ∧ rest₂ = rest := by simpa using h
      have hbehind : rest₂ <:+ rest₁ := (expect_suffix hclose).trans hinner
      have hle := hbehind.length_le
      exact ⟨hbehind.trans (header_suffix hheader), by omega⟩

/-- The error that ends a sequence of nodes comes from its last attempt, and nothing is read after
it. -/
lemma nodes_fault (tags : List String) (ts : List Token) :
    Fault ts (nodes tags ts).stop (nodes tags ts).rest := by
  induction hlength : ts.length using Nat.strongRecOn generalizing ts with
  | ind length ih =>
    subst hlength
    rw [nodes_eq]
    split
    · rename_i e rest hnode
      exact node_fault hnode
    · rename_i n rest hnode
      obtain ⟨hsuffix, hshorter⟩ := node_suffix hnode
      exact (ih _ hshorter rest rfl).of_suffix hsuffix

end Read

/-- A document is read to its end. An error that refuses one tells exactly what the reader was in
want of. At the end of the tokens that is one symbol of an element. Otherwise what is left behind
the error is told with it, and the actual token is either the one that was taken in the place of
such a symbol, directly in front of what is left, or the first one left, which starts no node. -/
theorem document_stops_where_told {tags : List String} {ts rest : List Token}
    {outcome : Except ReadError Document} (h : Read.document tags ts = ⟨outcome, rest⟩) :
    (∀ d, outcome = .ok d → rest = []) ∧
    ∀ e, outcome = .error e →
      (∃ kind ∈ Kind.elementSymbols, e = .notEnough [kind] ∧ rest = []) ∨
      ∃ expected actual, e = .unexpected expected actual (some rest) ∧ rest <:+ ts ∧
        ((∃ kind ∈ Kind.elementSymbols, expected = [kind] ∧ actual.kind ≠ kind ∧
            actual :: rest <:+ ts) ∨
          expected = Kind.nodeStart ∧ actual.kind ∉ Kind.nodeStart ∧
            rest.head? = some actual) := by
  have hfault := Read.nodes_fault tags ts
  unfold Read.document at h
  generalize Read.nodes tags ts = run at hfault h
  obtain ⟨ns, stop, left⟩ := run
  dsimp only at hfault h
  by_cases hend : left = [] ∧ stop = .notEnough Kind.nodeStart
  · rw [if_pos hend] at h
    cases h
    refine ⟨fun _ _ => hend.1, ?_⟩
    intro e he
    cases he
  · rw [if_neg hend] at h
    cases h
    constructor
    · intro d hd
      cases hd
    · intro e he
      obtain rfl : stop = e := Except.error.inj he
      cases hfault with
      | @noSymbol _ kind hkind => exact .inl ⟨kind, hkind, rfl, rfl⟩
      | @otherSymbol front rest t kind hkind ht =>
        have hsuffix : t :: rest <:+ front ++ t :: rest := List.suffix_append _ _
        exact .inr ⟨[kind], t, rfl, (List.suffix_cons t rest).trans hsuffix,
          .inl ⟨kind, hkind, rfl, ht, hsuffix⟩⟩
      | noNode => exact absurd ⟨rfl, rfl⟩ hend
      | @otherNode front rest t ht =>
        exact .inr ⟨Kind.nodeStart, t, rfl, List.suffix_append _ _, .inr ⟨rfl, ht, rfl⟩⟩

/-- The error that ends the body of `p` is dropped. What is told is that `p` is not closed, not that
`q` has no parenthesis. -/
theorem document_stops_where_told_open_body :
    let tokens : List Token := [⟨.name, "p"⟩, ⟨.openParen, ""⟩, ⟨.closeParen, ""⟩,
      ⟨.openBrace, ""⟩, ⟨.name, "q"⟩, ⟨.closeBrace, ""⟩, ⟨.equals, ""⟩, ⟨.text, "a"⟩]
    let rest : List Token := [⟨.text, "a"⟩]
    let e := ReadError.unexpected [.closeBrace] ⟨.equals, ""⟩ (some rest)
    Read.document [] tokens = ⟨.error e, rest⟩ ∧
      ((∃ kind ∈ Kind.elementSymbols, e = .notEnough [kind] ∧ rest = []) ∨
        ∃ expected actual, e = .unexpected expected actual (some rest) ∧ rest <:+ tokens ∧
          ((∃ kind ∈ Kind.elementSymbols, expected = [kind] ∧ actual.kind ≠ kind ∧
              actual :: rest <:+ tokens) ∨
            expected = Kind.nodeStart ∧ actual.kind ∉ Kind.nodeStart ∧
              rest.head? = some actual)) := by
  intro tokens rest e
  have houtcome : (Read.document [] tokens).outcome = .error e := by decide +kernel
  have hrest : (Read.document [] tokens).rest = rest := by decide +kernel
  have h : Read.document [] tokens = ⟨.error e, rest⟩ := by rw [← houtcome, ← hrest]
  exact ⟨h, (document_stops_where_told h).2 e rfl⟩

end TagCall
