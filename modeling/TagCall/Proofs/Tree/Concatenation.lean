import TagCall.Compile
import TagCall.Proofs.Tree.RoundTrip
import TagCall.Tree.Html

/-!
# One source text after another

The reader looks ahead, and what it takes in an abandoned attempt depends on what follows. None of
this reaches over the brace that closes a body (`Reads.replace_behind`). So tokens that are read to
their end are read the same whatever follows them, and what follows them is read as if it stood
alone (`nodes_append`).
-/

namespace TagCall

namespace Read

variable {tags : List String} {close : Token}

lemma startsAttribute_replace {front behind : List Token} (hclose : close.kind = .closeBrace)
    (more : List Token) (h : StartsAttribute (front ++ close :: behind)) :
    StartsAttribute (front ++ close :: more) := by
  obtain ⟨key, e, value, rest, h⟩ := h
  rcases front with - | ⟨a, - | ⟨b, - | ⟨c, front⟩⟩⟩
  · obtain ⟨rfl, -⟩ := List.cons.inj h
    cases hclose
  · obtain ⟨-, rfl, -⟩ : _ ∧ close = _ ∧ _ := by simpa using h
    cases hclose
  · obtain ⟨-, -, rfl, -⟩ : _ ∧ _ ∧ close = _ ∧ _ := by simpa using h
    cases hclose
  · obtain ⟨rfl, rfl, rfl, -⟩ : a = _ ∧ b = _ ∧ c = _ ∧ _ := by simpa using h
    exact ⟨key, e, value, front ++ close :: more, rfl⟩

lemma Stray.replace_behind {kind : Kind} {stray front behind : List Token}
    (h : Stray kind stray (front ++ close :: behind)) (more : List Token) :
    Stray kind stray (front ++ close :: more) := by
  rcases h with hother | ⟨-, hend⟩
  · exact .inl hother
  · simp at hend

/-- What is read in front of a closing brace does not depend on what stands behind it. -/
lemma Reads.replace_behind {ns : List Node} {kept trail after front behind : List Token}
    (h : Reads tags ns kept trail after) (hclose : close.kind = .closeBrace)
    (hafter : after = front ++ close :: behind) (more : List Token) :
    Reads tags ns kept trail (front ++ close :: more) := by
  induction h generalizing front with
  | stop hstop =>
    subst hafter
    refine .stop ?_
    cases front with
    | nil => simpa using hstop
    | cons t front => simpa using hstop
  | text _ ih => exact .text (ih hafter)
  | comment _ ih => exact .comment (ih hafter)
  | void htag hhead _ ih => exact .void htag hhead (ih hafter)
  | @element tag as children ns brace opening inner innerTrail kept trail after htag hopening _
      hbrace _ ihinner ih =>
    subst hafter
    have hinner : Reads tags children inner innerTrail
        (brace :: (kept ++ (trail ++ front)) ++ close :: more) := ihinner (by simp)
    refine .element htag hopening ?_ hbrace (ih rfl)
    simpa using hinner
  | noOpenParen hstray =>
    subst hafter
    exact .noOpenParen (hstray.replace_behind more)
  | @noCloseParen tag as start stray after hstart hend hstray =>
    subst hafter
    refine .noCloseParen hstart ?_ (hstray.replace_behind more)
    intro hstarts
    rw [← List.append_assoc] at hstarts hend
    exact hend (startsAttribute_replace hclose behind hstarts)
  | noOpenBrace htag hhead hstray =>
    subst hafter
    exact .noOpenBrace htag hhead (hstray.replace_behind more)
  | @noCloseBrace tag as children opening inner innerTrail stray after htag hopening _ hstray
      ihinner =>
    subst hafter
    have hinner : Reads tags children inner innerTrail (stray ++ front ++ close :: more) :=
      ihinner (by simp)
    rw [List.append_assoc] at hinner
    exact .noCloseBrace htag hopening hinner (hstray.replace_behind more)

/-- Behind tokens that are read to their end the reader goes on as from the start. -/
lemma nodes_append {ns : List Node} {kept trail after : List Token}
    (h : Reads tags ns kept trail after) (htrail : trail = []) (hafter : after = [])
    (more : List Token) :
    nodes tags (kept ++ more) =
      ⟨ns ++ (nodes tags more).nodes, (nodes tags more).stop, (nodes tags more).rest⟩ := by
  induction h with
  | stop => rfl
  | text _ ih | comment _ ih =>
    rw [List.cons_append, nodes_of_leaf rfl, ih htrail hafter]
    rfl
  | void htag hhead _ ih =>
    have hheader := header_head tags hhead
    rw [List.append_assoc, nodes_of_leaf (by rw [hheader, if_pos htag]), ih htrail hafter]
    rfl
  | @element tag as children ns brace opening inner innerTrail kept trail after htag hopening hinner
      hbrace _ _ ih =>
    have hreads : Reads tags children inner innerTrail ([] ++ brace :: (kept ++ more)) :=
      hinner.replace_behind hbrace rfl (kept ++ more)
    obtain ⟨_, hinside, -⟩ := nodes_of_reads hreads
    rw [List.nil_append] at hinside
    simp only [List.append_assoc, List.cons_append]
    have hheader := header_opening htag hopening (inner ++ (innerTrail ++ brace :: (kept ++ more)))
    rw [nodes_of_closed_body hheader (congrArg Run.rest hinside) hbrace, hinside,
      ih htrail hafter]
  -- A child that is broken off leaves a trail, so no such list is read to its end.
  | noOpenParen => cases htrail
  | noCloseParen hstart =>
    exact absurd (List.append_eq_nil_iff.1 htrail).1 (ne_nil_of_map_bare hstart)
  | noOpenBrace _ hhead =>
    exact absurd (List.append_eq_nil_iff.1 htrail).1 (ne_nil_of_map_bare hhead)
  | noCloseBrace _ hopening =>
    exact absurd (List.append_eq_nil_iff.1 htrail).1 (ne_nil_of_map_bare hopening)

end Read

/-- The document of two lists of siblings. -/
def Document.append (d e : Document) : Document :=
  ⟨d.nodes ++ e.nodes⟩

lemma ofTokens_append {tags : List String} {ts : List Token} {d : Document}
    (h : Document.ofTokens tags ts = .ok d) (us : List Token) :
    Document.ofTokens tags (ts ++ us) = (Document.ofTokens tags us).map d.append := by
  have hnodes := Read.nodes_append (Document.ofTokens_eq_ok_iff.1 h) rfl rfl us
  unfold Document.ofTokens Read.document
  simp only [hnodes]
  split <;> rfl

lemma ofSource_newline {tags : List String} {a : String} {d : Document}
    (h : Document.ofSource tags a = .ok d) (b : String) :
    Document.ofSource tags (a ++ "\n" ++ b) = (Document.ofSource tags b).map d.append := by
  obtain ⟨ts, hts, hd⟩ := ofSource_eq_ok_iff.1 h
  unfold Document.ofSource
  rw [Token.lex_newline hts]
  cases Token.lex b with
  | error e => rfl
  | ok us =>
    simp only [Except.map, ofTokens_append hd]
    cases Document.ofTokens tags us <;> rfl

lemma allHtmlChars_append (o : Html.Options) (ns ms : List Node) :
    Node.allHtmlChars o (ns ++ ms) = Node.allHtmlChars o ns ++ Node.allHtmlChars o ms := by
  induction ns with
  | nil => rfl
  | cons n rest ih =>
    rw [List.cons_append, Node.allHtmlChars, Node.allHtmlChars, ih, List.append_assoc]

lemma html_append (o : Html.Options) (d e : Document) :
    (d.append e).html o = d.html o ++ e.html o := by
  rw [Document.html, Document.append, allHtmlChars_append, String.ofList_append]
  rfl

/-- A text that is read can be put in front of another one, on lines of its own: the trees of both
stand side by side, and so does their HTML, or the fault of the second text is met, the same as if
it stood alone. -/
theorem sources_joined_by_newline {tags : List String} {a : String} {d : Document}
    (h : Document.ofSource tags a = .ok d) (b : String) :
    (∀ e, Document.ofSource tags b = .ok e →
      Document.ofSource tags (a ++ "\n" ++ b) = .ok ⟨d.nodes ++ e.nodes⟩ ∧
      ∀ ignoreComments, ∃ s t, Html.ofSource ⟨ignoreComments, tags⟩ a = .ok s ∧
        Html.ofSource ⟨ignoreComments, tags⟩ b = .ok t ∧
        Html.ofSource ⟨ignoreComments, tags⟩ (a ++ "\n" ++ b) = .ok (s ++ t)) ∧
    (∀ e, Document.ofSource tags b = .error e →
      Document.ofSource tags (a ++ "\n" ++ b) = .error e ∧
      ∀ ignoreComments, Html.ofSource ⟨ignoreComments, tags⟩ (a ++ "\n" ++ b) = .error e) := by
  have hjoined := ofSource_newline h b
  constructor
  · intro e he
    rw [he] at hjoined
    refine ⟨hjoined, ?_⟩
    intro ignoreComments
    refine ⟨d.html ⟨ignoreComments, tags⟩, e.html ⟨ignoreComments, tags⟩, ?_, ?_, ?_⟩
    · rw [Html.ofSource, h]
      rfl
    · rw [Html.ofSource, he]
      rfl
    · rw [Html.ofSource, hjoined, ← html_append]
      rfl
  · intro e he
    rw [he] at hjoined
    refine ⟨hjoined, ?_⟩
    intro ignoreComments
    rw [Html.ofSource, hjoined]
    rfl

/-- A child that is broken off inside a body, in front of a text that is read and of one that is
not. -/
theorem sources_joined_by_newline_broken_off_child :
    Document.ofSource [] "p()\x7bq\x7d\x7d" = .ok ⟨[.element "p" [] []]⟩ ∧
      Document.ofSource [] "p()\x7bq\x7d\x7d\n// a" = .ok ⟨[.element "p" [] [], .comment "a"]⟩ ∧
      Document.ofSource [] "p()\x7bq\x7d\x7d\n)(" = .error (.read (.unexpected Kind.nodeStart
        ⟨.closeParen, ""⟩ (some [⟨.closeParen, ""⟩, ⟨.openParen, ""⟩]))) := by
  have h : Document.ofSource [] "p()\x7bq\x7d\x7d" = .ok ⟨[.element "p" [] []]⟩ := by
    decide +kernel
  have hcomment : Document.ofSource [] "// a" = .ok ⟨[.comment "a"]⟩ := by
    decide +kernel
  have hparens : Document.ofSource [] ")(" = .error (.read (.unexpected Kind.nodeStart
      ⟨.closeParen, ""⟩ (some [⟨.closeParen, ""⟩, ⟨.openParen, ""⟩]))) := by
    decide +kernel
  exact ⟨h, ((sources_joined_by_newline h "// a").1 _ hcomment).1,
    ((sources_joined_by_newline h ")(").2 _ hparens).1⟩

end TagCall
