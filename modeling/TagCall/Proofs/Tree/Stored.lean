import TagCall.Proofs.Text.Bytes
import TagCall.Proofs.Tree.Comments

/-!
# Canonical sources in files

The canonical source of a text without carriage returns has none, and it never starts with a byte
order mark, so a file that it is written to holds the same text. It is its own canonical source, and
has the HTML of the text.
-/

namespace TagCall

open Grammar Layout Token

lemma mem_intercalate {α : Type} {a : α} {separator : List α} {parts : List (List α)}
    (h : a ∈ List.intercalate separator parts) : a ∈ separator ∨ ∃ part ∈ parts, a ∈ part := by
  induction parts with
  | nil => cases h
  | cons part parts ih =>
    by_cases hparts : parts = []
    · rw [hparts, List.intercalate_singleton] at h
      exact .inr ⟨part, List.mem_cons_self, h⟩
    · rw [List.intercalate_cons_of_ne_nil hparts, List.mem_append, List.mem_append] at h
      rcases h with (h | h) | h
      · exact .inr ⟨part, List.mem_cons_self, h⟩
      · exact .inl h
      · obtain h | ⟨other, hother, h⟩ := ih h
        · exact .inl h
        · exact .inr ⟨other, List.mem_cons_of_mem _ hother, h⟩

/-! ### Carriage returns -/

/-- A character that belongs to no sign is in the first line of an element only if it is in one of
its strings. -/
lemma notMem_headChars {c : Char} {tag : String} {attributes : List Attribute}
    (hc : c ∉ ['(', ')', '=', '"', ' ']) (htag : c ∉ tag.toList)
    (h : ∀ a ∈ attributes, c ∉ a.key.toList ∧ c ∉ a.value.toList) :
    c ∉ headChars tag attributes := by
  have hattribute : ∀ a ∈ attributes, c ∉ attributeChars a := by
    intro a ha
    simp_all [attributeChars]
  have hinside : c ∉ List.intercalate [' '] (attributes.map attributeChars) := by
    intro hmem
    obtain hspace | ⟨chars, hchars, hin⟩ := mem_intercalate hmem
    · simp_all
    · obtain ⟨a, ha, rfl⟩ := List.mem_map.1 hchars
      exact hattribute a ha hin
  simp_all [headChars]

lemma count_headChars {tag : String} {attributes : List Attribute}
    (h : ∀ t ∈ startTokens tag attributes, '\r' ∉ t.value.toList) :
    (headChars tag attributes).count '\r' = 0 := by
  rw [startTokens, List.forall_mem_cons, List.forall_mem_cons] at h
  obtain ⟨htag, -, hattributes⟩ := h
  rw [List.count_eq_zero]
  refine notMem_headChars (by decide) htag fun a ha => ⟨?_, ?_⟩
  · exact hattributes ⟨.name, a.key⟩ (List.mem_flatMap.2 ⟨a, ha, by simp [Attribute.tokens]⟩)
  · exact hattributes ⟨.text, a.value⟩ (List.mem_flatMap.2 ⟨a, ha, by simp [Attribute.tokens]⟩)

/-- Only the strings of a tree bring carriage returns into its lines. -/
lemma returns_allLines {o : Layout.Options} {ns : List Node}
    (h : ∀ t ∈ Node.allTokens o.voidTags ns, '\r' ∉ t.value.toList) (depth : Nat) :
    returns (Node.allLines o depth ns) = 0 := by
  induction ns using Node.siblings_induction generalizing depth with
  | nil => rfl
  | text content rest ih =>
    rw [Node.allTokens, Node.tokens, List.singleton_append, List.forall_mem_cons] at h
    rw [Node.allLines_text, returns_cons, ih h.2, Nat.add_zero, List.count_eq_zero]
    simpa [textChars] using h.1
  | comment content rest ih =>
    rw [Node.allTokens, Node.tokens, List.singleton_append, List.forall_mem_cons] at h
    rw [Node.allLines_comment]
    split
    · exact ih h.2 depth
    · rw [returns_cons, ih h.2, count_commentChars, List.count_eq_zero.2 h.1]
  | element tag attributes children rest ihchildren ih =>
    rw [Node.allTokens, Node.tokens, List.forall_mem_append] at h
    obtain ⟨hown, hrest⟩ := h
    rw [Node.allLines_element, returns_append, ih hrest, Nat.add_zero]
    by_cases htag : tag ∈ o.voidTags
    · rw [if_pos htag, headTokens, List.forall_mem_append] at hown
      rw [if_pos htag, returns_cons, count_headChars hown.1]
      rfl
    · rw [if_neg htag, openingTokens, headTokens] at hown
      simp only [List.forall_mem_append] at hown
      have hhead := count_headChars hown.1.1.1
      rw [if_neg htag, returns_bodyLines, ihchildren hown.2.1]
      simp [bodyLines, hhead, returns]

lemma Token.value_bare_subset (t : Token) : t.bare.value.toList ⊆ t.value.toList := by
  unfold Token.bare
  split
  · exact List.nil_subset _
  · exact List.Subset.refl _

lemma returns_of_ofSource {o : Layout.Options} {s : String} {d : Document}
    (h : Document.ofSource o.voidTags s = .ok d) (hs : '\r' ∉ s.toList) :
    returns (Node.allLines o 0 d.nodes) = 0 := by
  obtain ⟨ts, hts, hd⟩ := ofSource_eq_ok_iff.1 h
  obtain ⟨-, htokens⟩ := (Document.ofTokens_eq_ok_iff.1 hd).tokens
  have hvalues := ((lex_eq_ok_iff _ _).1 hts).value_subset
  apply returns_allLines
  intro t ht hreturn
  obtain ⟨u, hu, rfl⟩ := List.mem_map.1 (htokens.subset ht)
  exact hs (hvalues u hu (u.value_bare_subset hreturn))

lemma no_return_layout {o : Layout.Options} {s : String} {d : Document}
    (h : Document.ofSource o.voidTags s = .ok d) (hs : '\r' ∉ s.toList) :
    '\r' ∉ (d.layout o).toList := by
  rw [Document.layout, String.toList_ofList, ← List.count_eq_zero, count_joinLines,
    returns_of_ofSource h hs]

lemma not_endsInReturn_of_ofSource {o : Layout.Options} {s : String} {d : Document}
    (h : Document.ofSource o.voidTags s = .ok d) (hs : '\r' ∉ s.toList)
    (ho : o.ignoreComments = false) : ∀ n ∈ d.parts, ¬n.EndsInReturn := by
  have hreturns := returns_of_ofSource h hs
  have hbare : ∀ n ∈ d.parts, n.IsBareIfVoid o.voidTags := by
    intro n hn
    exact (isWritable_of_ofSource h n hn).isBareIfVoid
  obtain ⟨hle, heq⟩ := returns_allKept ho hbare 0
  exact heq (by omega)

/-! ### Byte order marks -/

/-- No lexeme starts with a byte order mark, and it is no white space. -/
lemma Token.Spells.head_ne_mark {t : Token} {lexeme after : List Char} (h : Spells t lexeme after) :
    lexeme.head? ≠ some Text.byteOrderMark := by
  cases h with
  | text => simp [Text.byteOrderMark]
  | comment => simp [Text.byteOrderMark]
  | name hname =>
    intro hmark
    have hmem := List.mem_of_mem_head? hmark
    exact absurd (hname.2 _ hmem) (by decide)
  | symbol hc =>
    rintro ⟨⟩
    cases hc

lemma head_ne_mark_of_blank {cs : List Char} (h : ∀ c ∈ cs, Text.isBlank c) :
    cs.head? ≠ some Text.byteOrderMark := by
  intro hmark
  exact absurd (h _ (List.mem_of_mem_head? hmark)) (by decide)

lemma Token.Lexes.head_ne_mark {cs : List Char} {ts : List Token} (h : Lexes cs ts) :
    cs.head? ≠ some Text.byteOrderMark := by
  obtain ⟨ps, tail, ⟨hpieces, htail⟩, -⟩ := h
  cases hpieces with
  | nil => exact head_ne_mark_of_blank htail
  | @cons p ps after _ hp hspells _ =>
    obtain ⟨c, rest, hlexeme, -⟩ := hspells.head
    have hmark := hspells.head_ne_mark
    rw [hlexeme] at hmark ⊢
    cases hblanks : p.blanks with
    | nil => exact hmark
    | cons b blanks =>
      rw [hblanks] at hp
      have hblank := head_ne_mark_of_blank hp
      exact hblank

/-! ### Files -/

section

variable {o : Layout.Options} {s t : String} {d : Document}

/-- What is kept of a text without carriage returns is all of it, or all but the comments. -/
lemma kept_of_no_return (h : Document.ofSource o.voidTags s = .ok d) (hs : '\r' ∉ s.toList) :
    d.kept o = if o.ignoreComments then d.withoutComments else d := by
  cases ho : o.ignoreComments with
  | true => exact kept_of_hidden ho d
  | false =>
    rw [Document.kept, (allKept_eq_self_iff ho d.nodes).2 (not_endsInReturn_of_ofSource h hs ho)]
    rfl

lemma html_kept (h : Document.ofSource o.voidTags s = .ok d) (hs : '\r' ∉ s.toList) :
    (d.kept o).html ⟨o.ignoreComments, o.voidTags⟩ =
      d.html ⟨o.ignoreComments, o.voidTags⟩ := by
  rw [kept_of_no_return h hs]
  cases o.ignoreComments with
  | true =>
    rw [if_pos rfl, Document.html, Document.withoutComments, allHtmlChars_withoutComments]
    rfl
  | false => rfl

/-- The canonical source of a text without carriage returns is its own canonical source. -/
lemma layout_again (h : Layout.ofSource o s = .ok t) (hs : '\r' ∉ s.toList) :
    Layout.ofSource o t = .ok t := by
  obtain ⟨d, hd, hlayout⟩ := Layout.ofSource_eq_ok_iff.1 h
  obtain ⟨hexcess, rfl⟩ := layout?_eq_ok_iff.1 hlayout
  have hwritable := isWritable_of_ofSource hd
  refine Layout.ofSource_eq_ok_iff.2 ⟨_, ofSource_layout hwritable, layout?_eq_ok_iff.2 ⟨?_, ?_⟩⟩
  · rw [Document.kept, all_isHidden_allKept, hexcess]
  · rw [layout_kept_eq_iff (fun n hn => (hwritable n hn).isBareIfVoid)]
    cases ho : o.ignoreComments with
    | true => exact .inl rfl
    | false => exact .inr (not_endsInReturn_of_ofSource hd hs ho)

lemma html_again (h : Layout.ofSource o s = .ok t) (hs : '\r' ∉ s.toList) :
    ∃ html, Html.ofSource ⟨o.ignoreComments, o.voidTags⟩ s = .ok html ∧
      Html.ofSource ⟨o.ignoreComments, o.voidTags⟩ t = .ok html := by
  obtain ⟨d, hd, hlayout⟩ := Layout.ofSource_eq_ok_iff.1 h
  obtain ⟨-, rfl⟩ := layout?_eq_ok_iff.1 hlayout
  refine ⟨d.html ⟨o.ignoreComments, o.voidTags⟩, ?_, ?_⟩
  · rw [Html.ofSource, hd]
    rfl
  · rw [Html.ofSource, ofSource_layout (isWritable_of_ofSource hd), ← html_kept hd hs]
    rfl

lemma ofBytes_layout (h : Layout.ofSource o s = .ok t) (hs : '\r' ∉ s.toList) :
    Text.ofBytes t.toUTF8 = t := by
  obtain ⟨d, hd, hlayout⟩ := Layout.ofSource_eq_ok_iff.1 h
  obtain ⟨-, rfl⟩ := layout?_eq_ok_iff.1 hlayout
  obtain ⟨ts, hts, -⟩ := ofSource_eq_ok_iff.1 (ofSource_layout (isWritable_of_ofSource hd))
  exact Text.ofBytes_toUTF8 (no_return_layout hd hs) ((lex_eq_ok_iff _ _).1 hts).head_ne_mark

end

end TagCall
