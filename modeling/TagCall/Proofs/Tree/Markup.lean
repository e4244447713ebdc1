import TagCall.Proofs.Token.Lexeme
import TagCall.Proofs.Tree.Texts

/-!
# Telling nodes apart in HTML

The first two characters of the HTML of siblings tell whether a text, a comment, an element or
nothing more stands in front (`mark_allHtmlChars`), and each of these ends where its own delimiter
says. So the HTML of siblings whose texts are merged, with what ends them behind it, is the HTML of
no others (`siblings_unique`).
-/

namespace TagCall

open Token

/-- The strings of a node can be told apart from the delimiters of HTML, and it has children only
where its tag allows a body. -/
def Node.IsRecognizable (tags : List String) : Node → Prop
  | .element tag attributes children =>
    IsName tag.toList ∧ (∀ a ∈ attributes, IsName a.key.toList ∧ IsBody a.value.toList) ∧
      (tag ∈ tags → children = [])
  | .text content => '<' ∉ content.toList
  | .comment content => ¬['-', '-', '>'] <:+: content.toList

instance (tags : List String) : (n : Node) → Decidable (n.IsRecognizable tags)
  | .element tag attributes children =>
    inferInstanceAs (Decidable (IsName tag.toList ∧
      (∀ a ∈ attributes, IsName a.key.toList ∧ IsBody a.value.toList) ∧
        (tag ∈ tags → children = [])))
  | .text content => inferInstanceAs (Decidable ('<' ∉ content.toList))
  | .comment content => inferInstanceAs (Decidable (¬['-', '-', '>'] <:+: content.toList))

namespace Html

/-- What can stand in front of siblings: none of them, or one of the three kinds of node. -/
inductive Mark where
  | stop
  | text
  | comment
  | element

/-- What the first two characters tell. -/
def mark : List Char → Mark
  | [] => .stop
  | '<' :: '/' :: _ => .stop
  | '<' :: '!' :: _ => .comment
  | '<' :: _ => .element
  | _ :: _ => .text

/-! ### Where strings end -/

lemma run_unique {p : Char → Bool} {a b after after' : List Char} (ha : ∀ c ∈ a, p c)
    (hb : ∀ c ∈ b, p c) (hafter : ∀ c ∈ after.head?, ¬p c) (hafter' : ∀ c ∈ after'.head?, ¬p c)
    (h : a ++ after = b ++ after') : a = b ∧ after = after' := by
  constructor
  · rw [← takeWhile_append_of_run ha hafter, h, takeWhile_append_of_run hb hafter']
  · rw [← dropWhile_append_of_run ha hafter, h, dropWhile_append_of_run hb hafter']

lemma name_unique {a b after after' : List Char} (ha : IsName a) (hb : IsName b)
    (hafter : ∀ c ∈ after.head?, ¬isNameChar c) (hafter' : ∀ c ∈ after'.head?, ¬isNameChar c)
    (h : a ++ after = b ++ after') : a = b ∧ after = after' :=
  run_unique ha.2 hb.2 hafter hafter' h

lemma value_unique {a b after after' : List Char} (ha : IsBody a) (hb : IsBody b)
    (h : a ++ '"' :: after = b ++ '"' :: after') : a = b ∧ after = after' := by
  have hread := quotedBody_append_quote ha after
  rw [h, quotedBody_append_quote hb after'] at hread
  obtain ⟨hbody, hleft⟩ := Prod.mk.inj (Except.ok.inj hread)
  exact ⟨hbody.symm, hleft.symm⟩

/-- Two ends of comments do not overlap: the angle bracket of one would be a dash of the other. -/
lemma behind_end_of_append {more after after' : List Char} (hmore : more ≠ [])
    (h : '-' :: '-' :: '>' :: after = more ++ '-' :: '-' :: '>' :: after') :
    ∃ tail, more = '-' :: '-' :: '>' :: tail ∧ after = tail ++ '-' :: '-' :: '>' :: after' := by
  rcases more with - | ⟨c, - | ⟨d, - | ⟨e, tail⟩⟩⟩
  · exact absurd rfl hmore
  · simp at h
  · simp at h
  · obtain ⟨rfl, rfl, rfl, htail⟩ : '-' = c ∧ '-' = d ∧ '>' = e ∧ _ := by simpa using h
    exact ⟨tail, rfl, htail⟩

/-- Where a comment goes on behind the end of another one, it has that end inside. -/
lemma end_infix_of_append {a more after after' : List Char} (hmore : more ≠ [])
    (h : '-' :: '-' :: '>' :: after = more ++ '-' :: '-' :: '>' :: after') :
    ['-', '-', '>'] <:+: a ++ more := by
  obtain ⟨tail, rfl, -⟩ := behind_end_of_append hmore h
  exact ⟨a, tail, by simp⟩

/-- A comment ends at the first place where its end can stand, also if its content ends in
dashes. -/
lemma comment_unique {a b after after' : List Char} (ha : ¬['-', '-', '>'] <:+: a)
    (hb : ¬['-', '-', '>'] <:+: b)
    (h : a ++ '-' :: '-' :: '>' :: after = b ++ '-' :: '-' :: '>' :: after') :
    a = b ∧ after = after' := by
  rcases List.append_eq_append_iff.1 h with ⟨more, rfl, hmore⟩ | ⟨more, rfl, hmore⟩
  · by_cases hnil : more = []
    · subst hnil
      simpa using hmore
    · exact absurd (end_infix_of_append hnil hmore) hb
  · by_cases hnil : more = []
    · subst hnil
      simpa [eq_comm] using hmore
    · exact absurd (end_infix_of_append hnil hmore) ha

lemma attributes_unique {as bs : List Attribute} {after after' : List Char}
    (has : ∀ a ∈ as, IsName a.key.toList ∧ IsBody a.value.toList)
    (hbs : ∀ b ∈ bs, IsName b.key.toList ∧ IsBody b.value.toList)
    (hafter : ' ' ∉ after.head?) (hafter' : ' ' ∉ after'.head?)
    (h : as.flatMap attributeChars ++ after = bs.flatMap attributeChars ++ after') :
    as = bs ∧ after = after' := by
  induction as generalizing bs with
  | nil =>
    cases bs with
    | nil => exact ⟨rfl, h⟩
    | cons b bs =>
      rw [List.flatMap_nil, List.nil_append] at h
      rw [h] at hafter
      exact absurd rfl hafter
  | cons a as ih =>
    cases bs with
    | nil =>
      rw [List.flatMap_nil, List.nil_append] at h
      rw [← h] at hafter'
      exact absurd rfl hafter'
    | cons b bs =>
      obtain ⟨⟨hkey, hvalue⟩, has⟩ := List.forall_mem_cons.1 has
      obtain ⟨⟨hkey', hvalue'⟩, hbs⟩ := List.forall_mem_cons.1 hbs
      simp only [List.flatMap_cons, attributeChars, List.cons_append, List.append_assoc,
        List.nil_append, List.cons.injEq, true_and] at h
      obtain ⟨hkeys, hrest⟩ := name_unique hkey hkey' (by simp; decide) (by simp; decide) h
      simp only [List.cons.injEq, true_and] at hrest
      obtain ⟨hvalues, hmore⟩ := value_unique hvalue hvalue' hrest
      obtain ⟨rfl, hend⟩ := ih has hbs hmore
      have hab : a = b := by
        cases a
        cases b
        simp_all [String.toList_inj]
      exact ⟨by rw [hab], hend⟩

/-! ### What stands in front -/

lemma mark_text {content after : List Char} (hne : content ≠ []) (h : '<' ∉ content) :
    mark (content ++ after) = .text := by
  obtain ⟨c, tail, rfl⟩ := List.exists_cons_of_ne_nil hne
  have hc : c ≠ '<' := by
    rintro rfl
    exact h (by simp)
  rw [List.cons_append]
  unfold mark
  split <;> simp_all

lemma mark_name {tag after : List Char} (h : IsName tag) :
    mark ('<' :: (tag ++ after)) = .element := by
  obtain ⟨hne, hchars⟩ := h
  obtain ⟨c, tail, rfl⟩ := List.exists_cons_of_ne_nil hne
  have hc : isNameChar c := hchars c (by simp)
  have hslash : c ≠ '/' := by
    rintro rfl
    exact absurd hc (by decide)
  have hbang : c ≠ '!' := by
    rintro rfl
    exact absurd hc (by decide)
  rw [List.cons_append]
  unfold mark
  split <;> grind

lemma head?_of_mark_ne_text {cs : List Char} (h : mark cs ≠ .text) : ∀ c ∈ cs.head?, c = '<' := by
  intro c hc
  obtain ⟨tail, rfl⟩ := List.head?_eq_some_iff.1 hc
  by_contra hne
  apply h
  unfold mark
  split <;> simp_all

def markOf : List Node → Mark
  | [] => .stop
  | .text _ :: _ => .text
  | .comment _ :: _ => .comment
  | .element _ _ _ :: _ => .element

lemma allHtmlChars_element (o : Options) (tag : String) (attributes : List Attribute)
    (children rest : List Node) (after : List Char) :
    Node.allHtmlChars o (.element tag attributes children :: rest) ++ after =
      '<' :: (tagChars tag attributes ++
        if tag ∈ o.voidTags then '/' :: '>' :: (Node.allHtmlChars o rest ++ after)
        else
          '>' :: (Node.allHtmlChars o children ++
            '<' :: '/' :: (tag.toList ++ '>' :: (Node.allHtmlChars o rest ++ after)))) := by
  rw [Node.allHtmlChars, Node.htmlChars]
  split
  · simp [voidChars]
  · simp [bodyChars]

lemma tagChars_unique {tag tag' : String} {as as' : List Attribute} {after after' : List Char}
    (htag : IsName tag.toList) (htag' : IsName tag'.toList)
    (has : ∀ a ∈ as, IsName a.key.toList ∧ IsBody a.value.toList)
    (has' : ∀ a ∈ as', IsName a.key.toList ∧ IsBody a.value.toList)
    (hafter : ∀ c ∈ after.head?, c = '/' ∨ c = '>')
    (hafter' : ∀ c ∈ after'.head?, c = '/' ∨ c = '>')
    (h : tagChars tag as ++ after = tagChars tag' as' ++ after') :
    tag = tag' ∧ as = as' ∧ after = after' := by
  have hname : ∀ (bs : List Attribute) (cs : List Char), (∀ c ∈ cs.head?, c = '/' ∨ c = '>') →
      ∀ c ∈ (bs.flatMap attributeChars ++ cs).head?, ¬isNameChar c := by
    intro bs cs hcs c hc
    cases bs with
    | nil => obtain rfl | rfl := hcs c hc <;> decide
    | cons b bs =>
      obtain rfl : ' ' = c := Option.some.inj hc
      decide
  have hspace : ∀ cs : List Char, (∀ c ∈ cs.head?, c = '/' ∨ c = '>') → ' ' ∉ cs.head? := by
    intro cs hcs hc
    simpa using hcs ' ' hc
  rw [tagChars, tagChars, List.append_assoc, List.append_assoc] at h
  obtain ⟨htags, hmore⟩ := name_unique htag htag' (hname as after hafter)
    (hname as' after' hafter') h
  obtain ⟨rfl, hend⟩ := attributes_unique has has' (hspace _ hafter) (hspace _ hafter') hmore
  exact ⟨String.toList_inj.1 htags, rfl, hend⟩

/-- The HTML of siblings tells by its first characters what stands in front. -/
lemma mark_allHtmlChars {tags : List String} {ns : List Node} {after : List Char}
    (hns : Node.Separated ns) (hparts : ∀ n ∈ Node.allParts ns, n.IsRecognizable tags)
    (hafter : mark after = .stop) :
    mark (Node.allHtmlChars ⟨false, tags⟩ ns ++ after) = markOf ns := by
  cases hns with
  | nil => exact hafter
  | text hne _ _ =>
    rw [Node.forall_parts_text] at hparts
    rw [Node.allHtmlChars, Node.htmlChars, List.append_assoc]
    exact mark_text (by simpa using hne) hparts.1
  | comment _ => rfl
  | @element tag attributes children rest _ _ =>
    rw [Node.forall_parts_element] at hparts
    rw [allHtmlChars_element, tagChars, List.append_assoc]
    exact mark_name hparts.1.1

end Html

open Html

/-! ### Siblings -/

lemma head?_allHtmlChars {tags : List String} {ns : List Node} {after : List Char}
    (hns : Node.Separated ns) (hparts : ∀ n ∈ Node.allParts ns, n.IsRecognizable tags)
    (hafter : mark after = .stop) (hhead : ∀ more, .text more ∉ ns.head?) :
    ∀ c ∈ (Node.allHtmlChars ⟨false, tags⟩ ns ++ after).head?, ¬decide (c ≠ '<') := by
  have hmark : mark (Node.allHtmlChars ⟨false, tags⟩ ns ++ after) ≠ .text := by
    rw [mark_allHtmlChars hns hparts hafter]
    match ns with
    | [] => simp [markOf]
    | .text more :: _ => exact absurd rfl (hhead more)
    | .comment _ :: _ => simp [markOf]
    | .element _ _ _ :: _ => simp [markOf]
  simpa using head?_of_mark_ne_text hmark

/-- The HTML of siblings, with what ends them behind it, belongs to no other siblings whose texts
are merged. -/
lemma siblings_unique {tags : List String} {ns ms : List Node} {after after' : List Char}
    (hns : Node.Separated ns) (hms : Node.Separated ms)
    (hn : ∀ n ∈ Node.allParts ns, n.IsRecognizable tags)
    (hm : ∀ m ∈ Node.allParts ms, m.IsRecognizable tags)
    (hafter : mark after = .stop) (hafter' : mark after' = .stop)
    (h : Node.allHtmlChars ⟨false, tags⟩ ns ++ after =
      Node.allHtmlChars ⟨false, tags⟩ ms ++ after') :
    ns = ms ∧ after = after' := by
  induction hns generalizing ms after after' with
  | nil =>
    have hmark := congrArg mark h
    rw [mark_allHtmlChars .nil hn hafter, mark_allHtmlChars hms hm hafter'] at hmark
    cases hms with
    | nil => exact ⟨rfl, h⟩
    | text | comment | element => cases hmark
  | @text content rest hne hhead hrest ih =>
    have hmark := congrArg mark h
    rw [mark_allHtmlChars (.text hne hhead hrest) hn hafter,
      mark_allHtmlChars hms hm hafter'] at hmark
    cases hms with
    | nil | comment | element => cases hmark
    | @text content' rest' hne' hhead' hrest' =>
      rw [Node.forall_parts_text] at hn hm
      simp only [Node.allHtmlChars, Node.htmlChars, List.append_assoc] at h
      have hrun : ∀ c ∈ content.toList, decide (c ≠ '<') := by
        intro c hc
        simpa using ne_of_mem_of_not_mem hc hn.1
      have hrun' : ∀ c ∈ content'.toList, decide (c ≠ '<') := by
        intro c hc
        simpa using ne_of_mem_of_not_mem hc hm.1
      obtain ⟨hcontent, hmore⟩ := run_unique hrun hrun'
        (head?_allHtmlChars hrest hn.2 hafter hhead)
        (head?_allHtmlChars hrest' hm.2 hafter' hhead') h
      obtain ⟨rfl, hend⟩ := ih hrest' hn.2 hm.2 hafter hafter' hmore
      exact ⟨by rw [String.toList_inj.1 hcontent], hend⟩
  | @comment content rest hrest ih =>
    have hmark := congrArg mark h
    rw [mark_allHtmlChars (.comment hrest) hn hafter, mark_allHtmlChars hms hm hafter'] at hmark
    cases hms with
    | nil | text | element => cases hmark
    | @comment content' rest' hrest' =>
      rw [Node.forall_parts_comment] at hn hm
      simp only [Node.allHtmlChars, Node.htmlChars, commentChars, List.append_assoc,
        List.cons_append, List.nil_append, Bool.false_eq_true, if_false, List.cons.injEq,
        true_and] at h
      obtain ⟨hcontent, hmore⟩ := comment_unique hn.1 hm.1 h
      obtain ⟨rfl, hend⟩ := ih hrest' hn.2 hm.2 hafter hafter' hmore
      exact ⟨by rw [String.toList_inj.1 hcontent], hend⟩
  | @element tag attributes children rest hchildren hrest ihchildren ih =>
    have hmark := congrArg mark h
    rw [mark_allHtmlChars (.element hchildren hrest) hn hafter,
      mark_allHtmlChars hms hm hafter'] at hmark
    cases hms with
    | nil | text | comment => cases hmark
    | @element tag' attributes' children' rest' hchildren' hrest' =>
      obtain ⟨⟨htag, has, hvoid⟩, hinner, hbehind⟩ := Node.forall_parts_element.1 hn
      obtain ⟨⟨htag', has', hvoid'⟩, hinner', hbehind'⟩ := Node.forall_parts_element.1 hm
      rw [allHtmlChars_element, allHtmlChars_element, List.cons.injEq] at h
      obtain ⟨rfl, rfl, htail⟩ := tagChars_unique htag htag' has has' (by split <;> simp)
        (by split <;> simp) h.2
      by_cases hmem : tag ∈ tags
      · rw [if_pos hmem, if_pos hmem, List.cons.injEq, List.cons.injEq] at htail
        obtain ⟨rfl, hend⟩ := ih hrest' hbehind hbehind' hafter hafter' htail.2.2
        exact ⟨by rw [hvoid hmem, hvoid' hmem], hend⟩
      · rw [if_neg hmem, if_neg hmem, List.cons.injEq] at htail
        obtain ⟨rfl, hclose⟩ := ihchildren hchildren' hinner hinner' rfl rfl htail.2
        simp only [List.cons.injEq, List.append_cancel_left_eq, true_and] at hclose
        obtain ⟨rfl, hend⟩ := ih hrest' hbehind hbehind' hafter hafter' hclose
        exact ⟨rfl, hend⟩

/-! ### Documents -/

lemma isRecognizable_allMerged {tags : List String} {ns : List Node}
    (h : ∀ n ∈ Node.allParts ns, n.IsRecognizable tags) :
    ∀ n ∈ Node.allParts (Node.allMerged ns), n.IsRecognizable tags := by
  induction ns using Node.siblings_induction with
  | nil => exact h
  | text content rest ih =>
    rw [Node.forall_parts_text] at h
    refine forall_parts_join_text ?_ h.1 (ih h.2)
    intro a b ha hb
    have happend : '<' ∉ a.toList ++ b.toList := by
      simpa using ⟨ha, hb⟩
    simpa [Node.IsRecognizable] using happend
  | comment content rest ih =>
    rw [Node.forall_parts_comment] at h
    rw [Node.allMerged_comment, Node.forall_parts_comment]
    exact ⟨h.1, ih h.2⟩
  | element tag attributes children rest ihchildren ih =>
    obtain ⟨⟨htag, has, hvoid⟩, hchildren, hrest⟩ := Node.forall_parts_element.1 h
    rw [Node.allMerged_element, Node.forall_parts_element]
    refine ⟨⟨htag, has, ?_⟩, ihchildren hchildren, ih hrest⟩
    intro hmem
    rw [hvoid hmem]
    rfl

/-- Two trees have the same HTML exactly if they are the same once texts side by side are merged and
empty texts are dropped. So everything else can be read off: which elements are inside which, the
order of attributes with their repetitions, comments, and elements without a body. -/
theorem html_eq_iff_merged {tags : List String} {d e : Document}
    (hd : ∀ n ∈ d.parts, n.IsRecognizable tags) (he : ∀ n ∈ e.parts, n.IsRecognizable tags) :
    d.html ⟨false, tags⟩ = e.html ⟨false, tags⟩ ↔ d.merged = e.merged := by
  constructor
  · intro h
    rw [← html_merged, ← html_merged _ e, Document.html, Document.html, String.ofList_inj] at h
    rw [← List.append_nil (Node.allHtmlChars _ d.merged.nodes),
      ← List.append_nil (Node.allHtmlChars _ e.merged.nodes)] at h
    have hnodes := siblings_unique (separated_allMerged d.nodes) (separated_allMerged e.nodes)
      (isRecognizable_allMerged hd) (isRecognizable_allMerged he) rfl rfl h
    rw [Document.merged, Document.merged, hnodes.1]
  · intro h
    rw [← html_merged, h, html_merged]

/-- Texts that are cut up differently, in front of a comment that ends in dashes and of a repeated
attribute whose value has a quote in it. -/
theorem html_eq_iff_merged_cut_texts :
    let attributes : List Attribute := [⟨"k", "\\\""⟩, ⟨"k", "1"⟩]
    let d : Document := ⟨[.text "a", .text "", .element "p" attributes [.comment "--", .text "b",
      .text "c"], .element "br" [] []]⟩
    let e : Document := ⟨[.text "a", .element "p" attributes [.comment "--", .text "bc"],
      .element "br" [] []]⟩
    (∀ n ∈ d.parts, n.IsRecognizable ["br"]) ∧ (∀ n ∈ e.parts, n.IsRecognizable ["br"]) ∧
      d.merged = e.merged ∧ d.html ⟨false, ["br"]⟩ = e.html ⟨false, ["br"]⟩ := by
  intro attributes d e
  have hd : ∀ n ∈ d.parts, n.IsRecognizable ["br"] := by decide +kernel
  have he : ∀ n ∈ e.parts, n.IsRecognizable ["br"] := by decide +kernel
  have hmerged : d.merged = e.merged := by decide +kernel
  exact ⟨hd, he, hmerged, (html_eq_iff_merged hd he).2 hmerged⟩

end TagCall
