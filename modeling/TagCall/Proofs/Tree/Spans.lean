import TagCall.Compile
import TagCall.Proofs.Tree.Markup
import TagCall.Proofs.Tree.RoundTrip

/-!
# Comments as a reader of HTML finds them

A reader of HTML ends a comment at the first place where its end stands, whatever the tree says. If
every comment ends only where its content does, cutting the comments out of the HTML gives the HTML
with comments hidden (`dropComments_allHtmlChars`). A content that has the end of a comment inside
shows up behind it, unless another comment starts right there.
-/

namespace TagCall

open Token

namespace Html

lemma length_lt_of_dropInfix? {cs mark front after : List Char} (hmark : mark ≠ [])
    (h : cs.dropInfix? mark = some (front, after)) : after.length < cs.length := by
  obtain ⟨⟨found, rfl, hfound⟩, -⟩ := List.dropInfix?_eq_some_iff.1 h
  have hpos : 0 < found.length := by
    rw [eq_of_beq hfound]
    exact List.length_pos_of_ne_nil hmark
  simp only [List.length_append]
  omega

/-- A text less every comment in it, from the left. The start of a comment that is not ended stays,
with all that follows it. -/
def dropComments (cs : List Char) : List Char :=
  match cs with
  | '<' :: '!' :: '-' :: '-' :: rest =>
    match h : rest.dropInfix? ['-', '-', '>'] with
    | some (_, after) =>
      have := length_lt_of_dropInfix? (by simp) h
      dropComments after
    | none => '<' :: '!' :: '-' :: '-' :: rest
  | c :: rest => c :: dropComments rest
  | [] => []
termination_by cs.length

/-- A content without the end of a comment inside, or one where another comment starts right behind
the first end, with a content that is sealed again. -/
inductive IsSealed : List Char → Prop where
  | closed {content : List Char} : ¬['-', '-', '>'] <:+: content → IsSealed content
  | again {front content : List Char} :
    ¬['-', '-', '>'] <:+: front → IsSealed content →
      IsSealed (front ++ '-' :: '-' :: '>' :: '<' :: '!' :: '-' :: '-' :: content)

end Html

/-- No text and no value of an attribute has an opening angle bracket. -/
def Node.HasNoAngle : Node → Prop
  | .element _ attributes _ => ∀ a ∈ attributes, '<' ∉ a.value.toList
  | .text content => '<' ∉ content.toList
  | .comment _ => True

def Node.IsSealed : Node → Prop
  | .comment content => Html.IsSealed content.toList
  | _ => True

namespace Html

/-! ### The first end of a comment -/

lemma dropInfix?_content {content : List Char} (h : ¬['-', '-', '>'] <:+: content)
    (after : List Char) :
    (content ++ '-' :: '-' :: '>' :: after).dropInfix? ['-', '-', '>'] =
      some (content, after) := by
  rw [List.dropInfix?_eq_some_iff]
  refine ⟨⟨['-', '-', '>'], by simp, by simp⟩, ?_⟩
  intro front found behind hsplit hfound
  obtain rfl : found = ['-', '-', '>'] := eq_of_beq hfound
  rw [List.append_assoc] at hsplit
  obtain ⟨more, hfront, -⟩ | ⟨more, rfl, hmore⟩ := List.append_eq_append_iff.1 hsplit
  · rw [hfront, List.length_append]
    omega
  · by_cases hnil : more = []
    · rw [hnil, List.append_nil]
    · exact absurd (end_infix_of_append hnil hmore) h

/-! ### Cutting comments out -/

lemma dropComments_of_ne {c : Char} (h : c ≠ '<') (rest : List Char) :
    dropComments (c :: rest) = c :: dropComments rest := by
  apply dropComments.eq_2
  intro _ hc
  exact absurd hc h

lemma dropComments_angle {rest : List Char} (h : rest.head? ≠ some '!') :
    dropComments ('<' :: rest) = '<' :: dropComments rest := by
  apply dropComments.eq_2
  rintro more - rfl
  exact h rfl

lemma dropComments_append {cs : List Char} (h : '<' ∉ cs) (after : List Char) :
    dropComments (cs ++ after) = cs ++ dropComments after := by
  induction cs with
  | nil => rfl
  | cons c cs ih =>
    rw [List.mem_cons, not_or] at h
    rw [List.cons_append, dropComments_of_ne (Ne.symm h.1), ih h.2, List.cons_append]

lemma dropComments_span {content : List Char} (h : ¬['-', '-', '>'] <:+: content)
    (after : List Char) :
    dropComments ('<' :: '!' :: '-' :: '-' :: (content ++ '-' :: '-' :: '>' :: after)) =
      dropComments after := by
  rw [dropComments.eq_1]
  split
  · rename_i front behind hfound
    rw [dropInfix?_content h] at hfound
    obtain ⟨-, rfl⟩ := Prod.mk.inj (Option.some.inj hfound)
    rfl
  · rename_i hnone
    rw [dropInfix?_content h] at hnone
    cases hnone

lemma dropComments_sealed {content : List Char} (h : IsSealed content) (after : List Char) :
    dropComments ('<' :: '!' :: '-' :: '-' :: (content ++ '-' :: '-' :: '>' :: after)) =
      dropComments after := by
  induction h with
  | closed hcontent => exact dropComments_span hcontent after
  | @again front content hfront _ ih =>
    rw [List.append_assoc]
    exact (dropComments_span hfront _).trans ih

/-- What is cut out whole is one comment after another. -/
lemma span_of_dropComments_eq_nil {cs : List Char} (hne : cs ≠ []) (h : dropComments cs = []) :
    ∃ front after, cs = '<' :: '!' :: '-' :: '-' :: (front ++ '-' :: '-' :: '>' :: after) ∧
      ¬['-', '-', '>'] <:+: front ∧ dropComments after = [] := by
  unfold dropComments at h
  split at h
  · split at h
    · rename_i rest front after hfound
      obtain ⟨⟨found, hrest, hmark⟩, hfirst⟩ := List.dropInfix?_eq_some_iff.1 hfound
      obtain rfl : found = ['-', '-', '>'] := eq_of_beq hmark
      refine ⟨front, after, by simp [hrest], ?_, h⟩
      rintro ⟨before, behind, hfront⟩
      -- An end inside the content would stand in front of the first one.
      have hle := hfirst before ['-', '-', '>'] (behind ++ ['-', '-', '>'] ++ after)
        (by rw [hrest, ← hfront]; simp) (by simp)
      have hlength := congrArg List.length hfront
      simp only [List.length_append, List.length_cons] at hlength
      omega
    · cases h
  · cases h
  · exact absurd rfl hne

/-- What starts like a comment in front of an end of a comment has that start before the end. -/
lemma start_of_append {tail inside : List Char} (hlength : 3 ≤ inside.length)
    (h : tail ++ ['-', '-', '>'] = '<' :: '!' :: '-' :: '-' :: inside) :
    ∃ content, tail = '<' :: '!' :: '-' :: '-' :: content ∧
      inside = content ++ ['-', '-', '>'] := by
  change tail ++ ['-', '-', '>'] = ['<', '!', '-', '-'] ++ inside at h
  obtain ⟨more, hstart, hend⟩ | ⟨content, rfl, hinside⟩ := List.append_eq_append_iff.1 h
  · have hnil : more = [] := by
      have hcount := congrArg List.length hend
      simp only [List.length_append, List.length_cons, List.length_nil] at hcount
      exact List.eq_nil_of_length_eq_zero (by omega)
    rw [hnil, List.append_nil] at hstart
    rw [hnil, List.nil_append] at hend
    exact ⟨[], hstart.symm, hend.symm⟩
  · exact ⟨content, rfl, hinside⟩

/-- The first end in a comment stands inside its content, if one stands there at all. -/
lemma content_of_span {content front after : List Char} (hcontent : ['-', '-', '>'] <:+: content)
    (hfront : ¬['-', '-', '>'] <:+: front)
    (h : content ++ ['-', '-', '>'] = front ++ '-' :: '-' :: '>' :: after) :
    ∃ tail, content = front ++ '-' :: '-' :: '>' :: tail ∧ after = tail ++ ['-', '-', '>'] := by
  obtain ⟨more, rfl, -⟩ | ⟨more, rfl, hmore⟩ := List.append_eq_append_iff.1 h
  · exact absurd (hcontent.trans (List.infix_append [] content more)) hfront
  · have hne : more ≠ [] := by
      rintro rfl
      rw [List.append_nil] at hcontent
      exact hfront hcontent
    obtain ⟨tail, rfl, hbehind⟩ := behind_end_of_append hne hmore
    exact ⟨tail, rfl, hbehind⟩

lemma isSealed_of_dropComments_eq_nil {content : List Char}
    (h : dropComments ('<' :: '!' :: '-' :: '-' :: (content ++ ['-', '-', '>'])) = []) :
    IsSealed content := by
  -- The content of the second comment is shorter, and cutting it out leaves nothing either.
  induction hlength : content.length using Nat.strongRecOn generalizing content with
  | ind length ih =>
    subst hlength
    by_cases hinside : ['-', '-', '>'] <:+: content
    · obtain ⟨front, after, hsplit, hfront, hafter⟩ := span_of_dropComments_eq_nil (by simp) h
      have hsplit : content ++ ['-', '-', '>'] = front ++ '-' :: '-' :: '>' :: after := by
        simpa using hsplit
      obtain ⟨tail, rfl, rfl⟩ := content_of_span hinside hfront hsplit
      obtain ⟨front', after', hspan, -, -⟩ := span_of_dropComments_eq_nil (by simp) hafter
      have hlength : 3 ≤ (front' ++ '-' :: '-' :: '>' :: after').length := by
        simp only [List.length_append, List.length_cons]
        omega
      obtain ⟨content, rfl, -⟩ := start_of_append hlength hspan
      have hshorter : content.length <
          (front ++ '-' :: '-' :: '>' :: '<' :: '!' :: '-' :: '-' :: content).length := by
        simp only [List.length_append, List.length_cons]
        omega
      exact .again hfront (ih _ hshorter hafter rfl)
    · exact .closed hinside

lemma dropComments_comment (content : String) :
    dropComments (commentChars content) = [] ↔ IsSealed content.toList := by
  have hchars : commentChars content =
      '<' :: '!' :: '-' :: '-' :: (content.toList ++ ['-', '-', '>']) := by
    simp [commentChars]
  rw [hchars]
  constructor
  · exact isSealed_of_dropComments_eq_nil
  · intro h
    rw [dropComments_sealed h]
    exact dropComments.eq_3

/-! ### All nodes -/

lemma no_angle_of_isName {word : List Char} (h : IsName word) : '<' ∉ word := by
  intro hmem
  exact absurd (h.2 _ hmem) (by decide)

lemma no_angle_tagChars {tag : String} {attributes : List Attribute} (htag : IsName tag.toList)
    (hkeys : ∀ a ∈ attributes, IsName a.key.toList)
    (hvalues : ∀ a ∈ attributes, '<' ∉ a.value.toList) : '<' ∉ tagChars tag attributes := by
  intro h
  obtain h | h := List.mem_append.1 h
  · exact no_angle_of_isName htag h
  · obtain ⟨a, ha, h⟩ := List.mem_flatMap.1 h
    simp [attributeChars, no_angle_of_isName (hkeys a ha), hvalues a ha] at h

lemma head?_tagChars {tag : String} (htag : IsName tag.toList) (attributes : List Attribute)
    (after : List Char) : (tagChars tag attributes ++ after).head? ≠ some '!' := by
  obtain ⟨c, word, hword⟩ := List.exists_cons_of_ne_nil htag.1
  have hc : isNameChar c := htag.2 c (by simp [hword])
  rw [tagChars, hword]
  intro h
  obtain rfl : c = '!' := by simpa using h
  exact absurd hc (by decide)

/-- Cutting the comments out of the HTML of siblings leaves their HTML without comments. -/
lemma dropComments_allHtmlChars {tags : List String} {ns : List Node}
    (hwritable : ∀ n ∈ Node.allParts ns, n.IsWritable tags)
    (hangle : ∀ n ∈ Node.allParts ns, n.HasNoAngle)
    (hsealed : ∀ n ∈ Node.allParts ns, n.IsSealed) (after : List Char) :
    dropComments (Node.allHtmlChars ⟨false, tags⟩ ns ++ after) =
      Node.allHtmlChars ⟨true, tags⟩ ns ++ dropComments after := by
  induction ns using Node.siblings_induction generalizing after with
  | nil => rfl
  | text content rest ih =>
    rw [Node.forall_parts_text] at hwritable hangle hsealed
    rw [Node.allHtmlChars, Node.allHtmlChars, Node.htmlChars, Node.htmlChars, List.append_assoc,
      List.append_assoc, dropComments_append hangle.1, ih hwritable.2 hangle.2 hsealed.2]
  | comment content rest ih =>
    rw [Node.forall_parts_comment] at hwritable hangle hsealed
    have hrest := ih hwritable.2 hangle.2 hsealed.2 after
    have hcut := dropComments_sealed hsealed.1 (Node.allHtmlChars ⟨false, tags⟩ rest ++ after)
    rw [hrest] at hcut
    simpa [Node.allHtmlChars, Node.htmlChars, commentChars] using hcut
  | element tag attributes children rest ihchildren ih =>
    rw [Node.forall_parts_element] at hwritable hangle hsealed
    obtain ⟨⟨htag, hattributes, -⟩, hchildren, hrest⟩ := hwritable
    have htagChars := no_angle_tagChars htag (fun a ha => (hattributes a ha).1) hangle.1
    have hbehind := ih hrest hangle.2.2 hsealed.2.2 after
    rw [allHtmlChars_element, allHtmlChars_element, dropComments_angle (head?_tagChars htag _ _),
      dropComments_append htagChars]
    by_cases hmem : tag ∈ tags
    · rw [if_pos hmem, if_pos hmem, dropComments_of_ne (by decide),
        dropComments_of_ne (by decide), hbehind]
    · rw [if_neg hmem, if_neg hmem, dropComments_of_ne (by decide),
        ihchildren hchildren hangle.2.1 hsealed.2.1, dropComments_angle (by simp),
        dropComments_of_ne (by decide), dropComments_append (no_angle_of_isName htag),
        dropComments_of_ne (by decide), hbehind]

end Html

/-- Cutting the comments out of a page, from the left and each up to the first place where one can
end, gives the page with comments hidden, if no text and no value has an opening angle bracket and
every comment is sealed. A comment alone is cut out whole exactly if it is sealed. -/
theorem comments_are_cut_out (tags : List String) :
    (∀ s d, Document.ofSource tags s = .ok d → (∀ n ∈ d.parts, n.HasNoAngle) →
      (∀ n ∈ d.parts, n.IsSealed) →
      Html.ofSource ⟨false, tags⟩ s = .ok (d.html ⟨false, tags⟩) ∧
      Html.ofSource ⟨true, tags⟩ s =
        .ok (String.ofList (Html.dropComments (d.html ⟨false, tags⟩).toList))) ∧
    ∀ content, Html.dropComments (Document.html ⟨false, tags⟩ ⟨[.comment content]⟩).toList =
      (Document.html ⟨true, tags⟩ ⟨[.comment content]⟩).toList ↔
        Html.IsSealed content.toList := by
  constructor
  · intro s d h hangle hsealed
    have hwritable : ∀ n ∈ d.parts, n.IsWritable tags := isWritable_of_ofSource h
    have hcut := Html.dropComments_allHtmlChars hwritable hangle hsealed []
    rw [List.append_nil, Html.dropComments.eq_3, List.append_nil] at hcut
    have hhtml : String.ofList (Html.dropComments (d.html ⟨false, tags⟩).toList) =
        d.html ⟨true, tags⟩ := by
      rw [Document.html, String.toList_ofList, hcut, Document.html]
    rw [hhtml, Html.ofSource, Html.ofSource, h]
    exact ⟨rfl, rfl⟩
  · intro content
    simp only [Document.html, Node.allHtmlChars, Node.htmlChars, String.toList_ofList,
      List.append_nil, Bool.false_eq_true, if_false, if_true]
    exact Html.dropComments_comment content

/-- Comments that end in dashes, start like a comment or hold two, in a body and behind it. -/
theorem comments_are_cut_out_dashes :
    let s := "p(k=\"-->\")\x7b//--\n\"-->\"//<!--\n\x7d//a--><!--b"
    let d : Document := ⟨[.element "p" [⟨"k", "-->"⟩] [.comment "--", .text "-->",
      .comment "<!--"], .comment "a--><!--b"]⟩
    Document.ofSource [] s = .ok d ∧ (∀ n ∈ d.parts, n.HasNoAngle) ∧ (∀ n ∈ d.parts, n.IsSealed) ∧
      Html.ofSource ⟨true, []⟩ s =
        .ok (String.ofList (Html.dropComments (d.html ⟨false, []⟩).toList)) := by
  intro s d
  have h : Document.ofSource [] s = .ok d := by decide +kernel
  have hangle : ∀ n ∈ d.parts, n.HasNoAngle := by
    simp [d, Document.parts, Node.allParts, Node.parts, Node.HasNoAngle]
  have hsealed : ∀ n ∈ d.parts, n.IsSealed := by
    have hdashes : Html.IsSealed ['-', '-'] := .closed (by decide)
    have hstart : Html.IsSealed ['<', '!', '-', '-'] := .closed (by decide)
    have hfront : ¬['-', '-', '>'] <:+: ['a'] := by decide
    have htwo : Html.IsSealed (['a'] ++ '-' :: '-' :: '>' :: '<' :: '!' :: '-' :: '-' :: ['b']) :=
      .again hfront (.closed (by decide))
    simpa [d, Document.parts, Node.allParts, Node.parts, Node.IsSealed] using
      ⟨hdashes, hstart, htwo⟩
  exact ⟨h, hangle, hsealed, ((comments_are_cut_out []).1 s d h hangle hsealed).2⟩

/-- What stands behind the end of a comment in the content of one is shown. -/
theorem comment_shows_behind_inner_end :
    ¬∀ (tags : List String) (s : String) (d : Document), Document.ofSource tags s = .ok d →
      (∀ n ∈ d.parts, n.HasNoAngle) →
      Html.dropComments (d.html ⟨false, tags⟩).toList = (d.html ⟨true, tags⟩).toList := by
  intro h
  have hread : Document.ofSource [] "// a --> b" = .ok ⟨[.comment "a --> b"]⟩ := by
    decide +kernel
  have hangle : ∀ n ∈ Document.parts ⟨[.comment "a --> b"]⟩, n.HasNoAngle := by
    simp [Document.parts, Node.allParts, Node.parts, Node.HasNoAngle]
  have hcut := h [] "// a --> b" _ hread hangle
  exact absurd hcut (by decide +kernel)

end TagCall
