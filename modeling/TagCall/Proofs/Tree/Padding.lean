import TagCall.Proofs.Tree.Acceptance

/-!
# Where tokens are passed over

The tokens of an accepted document are those that the grammar gives to its tree, with at most one
block of others directly in front of each closing brace. A block starts with a name, because only an
element can be broken off.
-/

namespace TagCall

open Grammar

/-- `Padded plain padded`: the second list is the first one with blocks put in. In front of a
closing brace may stand one block, which starts with a name. Nothing stands anywhere else. -/
inductive Padded : List Token → List Token → Prop where
  | nil : Padded [] []
  | keep {t : Token} {plain padded : List Token} :
    Padded plain padded → Padded (t :: plain) (t :: padded)
  | block {name close : Token} {more plain padded : List Token} :
    name.kind = .name → close.kind = .closeBrace → Padded plain padded →
      Padded (close :: plain) (name :: (more ++ close :: padded))

namespace Padded

lemma refl (ts : List Token) : Padded ts ts := by
  induction ts with
  | nil => exact .nil
  | cons t ts ih => exact .keep ih

lemma append {plain padded plain' padded' : List Token} (h : Padded plain padded)
    (h' : Padded plain' padded') : Padded (plain ++ plain') (padded ++ padded') := by
  induction h with
  | nil => exact h'
  | keep _ ih => exact .keep ih
  | @block name close more plain padded hname hclose _ ih =>
    rw [List.cons_append, List.cons_append, List.append_assoc, List.cons_append]
    exact .block hname hclose ih

lemma append_left {plain padded : List Token} (h : Padded plain padded) (ts : List Token) :
    Padded (ts ++ plain) (ts ++ padded) :=
  (Padded.refl ts).append h

/-- Nothing is left out, and what is kept is in order. -/
lemma sublist {plain padded : List Token} (h : Padded plain padded) : plain.Sublist padded := by
  induction h with
  | nil => exact .slnil
  | keep _ ih => exact ih.cons_cons _
  | @block name close more plain padded _ _ _ ih =>
    have hclose := ih.cons_cons close
    exact (hclose.trans (List.sublist_append_right more _)).cons name

/-- A block that is empty or starts with a name may stand in front of a brace. -/
lemma brace {close : Token} {trail plain padded : List Token}
    (htrail : ∀ t ∈ trail.head?, t.kind = .name) (hclose : close.kind = .closeBrace)
    (h : Padded plain padded) : Padded (close :: plain) (trail ++ close :: padded) := by
  cases trail with
  | nil => exact .keep h
  | cons t trail =>
    have hname : t.kind = .name := htrail t rfl
    exact .block hname hclose h

end Padded

namespace Read

lemma head_of_map_bare {ts more : List Token} {tag : String}
    (h : ts.map Token.bare = ⟨.name, tag⟩ :: more) : ∃ rest, ts = ⟨.name, tag⟩ :: rest := by
  obtain ⟨t, rest, rfl, ht, -⟩ := List.map_eq_cons_iff.1 h
  rw [Token.bare_eq_valued rfl] at ht
  exact ⟨rest, by rw [ht]⟩

/-- An attempt that takes something takes the name of an element first. -/
lemma Reads.head_trail {tags : List String} {ns : List Node} {kept trail after : List Token}
    (h : Reads tags ns kept trail after) : ∀ t ∈ trail.head?, t.kind = .name := by
  have hstart : ∀ {ts more behind : List Token} {tag : String},
      ts.map Token.bare = ⟨.name, tag⟩ :: more → ∀ t ∈ (ts ++ behind).head?, t.kind = .name := by
    intro ts more behind tag hts t ht
    obtain ⟨rest, rfl⟩ := head_of_map_bare hts
    obtain rfl : (⟨.name, tag⟩ : Token) = t := Option.some.inj ht
    rfl
  induction h with
  | stop _ => simp
  | text _ ih | comment _ ih | void _ _ _ ih => exact ih
  | element _ _ _ _ _ _ ih => exact ih
  | noOpenParen _ => simp
  | noCloseParen h _ _ => exact hstart h
  | noOpenBrace _ h _ => exact hstart h
  | noCloseBrace _ h _ _ _ => exact hstart h

/-- What is kept of a run is the grammar's tokens of its nodes, with the trails in front of the
braces. -/
lemma Reads.padded {tags : List String} {ns : List Node} {kept trail after : List Token}
    (h : Reads tags ns kept trail after) :
    Padded (Node.allTokens tags ns) (kept.map Token.bare) := by
  induction h with
  | stop | noOpenParen | noCloseParen | noOpenBrace | noCloseBrace => exact .nil
  | text _ ih | comment _ ih => exact .keep ih
  | void htag hhead _ ih =>
    rw [Node.allTokens, Node.tokens, if_pos htag, List.map_append, hhead]
    exact ih.append_left _
  | @element tag as children ns close opening inner innerTrail kept trail after htag hopening
      hinner hclose _ ihinner ih =>
    have hbrace : close.bare = ⟨.closeBrace, ""⟩ := (Token.bare_eq_symbol rfl).2 hclose
    have htrail : ∀ t ∈ (innerTrail.map Token.bare).head?, t.kind = .name := by
      intro t ht
      rw [List.head?_map] at ht
      obtain ⟨u, hu, rfl⟩ := Option.map_eq_some_iff.1 ht
      have hname := hinner.head_trail u hu
      simp [Token.bare, hname, Kind.isSymbol]
    have hbehind : Padded (⟨.closeBrace, ""⟩ :: Node.allTokens tags ns)
        (innerTrail.map Token.bare ++ ⟨.closeBrace, ""⟩ :: kept.map Token.bare) :=
      .brace htrail rfl ih
    have hbody := ihinner.append hbehind
    rw [Node.allTokens, Node.tokens, if_neg htag]
    simp only [List.map_append, List.map_cons, hopening, hbrace, List.append_assoc,
      List.singleton_append]
    exact hbody.append_left _

end Read

/-- The tokens of an accepted document are those of the grammar in their order, and what is there
besides them is one block at most in front of each closing brace. -/
theorem accepted_tokens_are_padded {tags : List String} {ts : List Token} {d : Document}
    (h : Document.ofTokens tags ts = .ok d) :
    (∀ n ∈ d.parts, n.IsBareIfVoid tags) ∧ Padded (d.tokens tags) (ts.map Token.bare) ∧
      (d.tokens tags).Sublist (ts.map Token.bare) := by
  have hreads := Document.ofTokens_eq_ok_iff.1 h
  have hpadded := hreads.padded
  exact ⟨hreads.tokens.1, hpadded, hpadded.sublist⟩

/-- An element that is broken off in the body of another one, which is broken off too, is in the one
block that both leave. -/
theorem accepted_tokens_are_padded_two_broken_off :
    let tokens : List Token := [⟨.name, "p"⟩, ⟨.openParen, ""⟩, ⟨.closeParen, ""⟩,
      ⟨.openBrace, ""⟩, ⟨.text, "a"⟩, ⟨.name, "q"⟩, ⟨.openParen, "x"⟩, ⟨.closeParen, ""⟩,
      ⟨.openBrace, ""⟩, ⟨.name, "r"⟩, ⟨.closeBrace, ""⟩, ⟨.equals, ""⟩, ⟨.closeBrace, ""⟩]
    Document.ofTokens [] tokens = .ok ⟨[.element "p" [] [.text "a"]]⟩ ∧
      Padded (Document.tokens [] ⟨[.element "p" [] [.text "a"]]⟩) (tokens.map Token.bare) := by
  intro tokens
  have h : Document.ofTokens [] tokens = .ok ⟨[.element "p" [] [.text "a"]]⟩ := by
    decide +kernel
  exact ⟨h, (accepted_tokens_are_padded h).2.1⟩

end TagCall
