import TagCall.Proofs.Token.Cut

/-!
# Joining source texts

The tokens of a text that is put together from lexemes, from white space and from other texts with
newlines between them. A newline ends every lexeme in front of it.
-/

namespace TagCall.Token

lemma Lexes.unique {cs : List Char} {ts us : List Token} (h : Lexes cs ts) (h' : Lexes cs us) :
    ts = us := by
  obtain ⟨ps, tail, hcut, rfl⟩ := h
  obtain ⟨qs, tail', hcut', rfl⟩ := h'
  obtain ⟨rfl, -⟩ := hcut.1.unique hcut.2 hcut'.1 hcut'.2
  rfl

lemma lexes_of_blank {cs : List Char} (h : ∀ c ∈ cs, Text.isBlank c) : Lexes cs [] :=
  ⟨[], cs, ⟨.nil, h⟩, rfl⟩

/-- White space in front of a text changes nothing. -/
lemma Lexes.blanks {blanks cs : List Char} {ts : List Token} (hblanks : ∀ c ∈ blanks, Text.isBlank c)
    (h : Lexes cs ts) : Lexes (blanks ++ cs) ts := by
  obtain ⟨ps, tail, ⟨hpieces, htail⟩, hts⟩ := h
  cases hpieces with
  | nil =>
    rw [← hts]
    apply lexes_of_blank
    intro c hc
    rcases List.mem_append.1 hc with hc | hc
    · exact hblanks c hc
    · exact htail c hc
  | @cons p ps after _ hfront hspells hrest =>
    have hall : ∀ c ∈ blanks ++ p.blanks, Text.isBlank c := by
      intro c hc
      rcases List.mem_append.1 hc with hc | hc
      · exact hblanks c hc
      · exact hfront c hc
    have hpieces := Pieces.cons (p := ⟨blanks ++ p.blanks, p.lexeme, p.token⟩) hall hspells hrest
    rw [List.append_assoc] at hpieces
    exact ⟨_, tail, ⟨hpieces, htail⟩, hts⟩

lemma Lexes.cons {t : Token} {lexeme after : List Char} {ts : List Token}
    (hspells : Spells t lexeme after) (h : Lexes after ts) : Lexes (lexeme ++ after) (t :: ts) := by
  obtain ⟨ps, tail, ⟨hpieces, htail⟩, rfl⟩ := h
  exact ⟨_, tail, ⟨.cons (p := ⟨[], lexeme, t⟩) (by simp) hspells hpieces, htail⟩, rfl⟩

/-- A lexeme stays one where a new line follows the text that stood behind it. -/
lemma Spells.newline {t : Token} {lexeme after : List Char} (h : Spells t lexeme after)
    (more : List Char) : Spells t lexeme (after ++ '\n' :: more) := by
  have hhead : ∀ c ∈ (after ++ '\n' :: more).head?, c ∈ after.head? ∨ c = '\n' := by
    intro c hc
    cases after with
    | nil => exact .inr (Option.mem_some.1 hc).symm
    | cons d after => exact .inl hc
  cases h with
  | text hbody => exact .text hbody
  | comment hline hafter =>
    refine .comment hline ?_
    intro c hc
    exact (hhead c hc).elim (hafter c) id
  | name hname hafter =>
    refine .name hname ?_
    intro c hc
    rcases hhead c hc with hc | rfl
    · exact hafter c hc
    · decide
  | symbol hc => exact .symbol hc

lemma Pieces.newline {cs rest : List Char} {ps : List Piece} (h : Pieces cs ps rest)
    (more : List Char) : Pieces (cs ++ '\n' :: more) ps (rest ++ '\n' :: more) := by
  induction h with
  | nil => exact .nil
  | cons hblanks hspells _ ih =>
    have hpieces := Pieces.cons hblanks (hspells.newline more) ih
    simpa only [List.append_assoc] using hpieces

lemma Pieces.lexes {cs rest : List Char} {ps : List Piece} {ts : List Token} (h : Pieces cs ps rest)
    (hrest : Lexes rest ts) : Lexes cs (ps.map (·.token) ++ ts) := by
  induction h with
  | nil => exact hrest
  | cons hblanks hspells _ ih => exact (Lexes.cons hspells (ih hrest)).blanks hblanks

lemma isBlank_append_newline {tail : List Char} (h : ∀ c ∈ tail, Text.isBlank c) :
    ∀ c ∈ tail ++ ['\n'], Text.isBlank c := by
  intro c hc
  rcases List.mem_append.1 hc with hc | hc
  · exact h c hc
  · rw [List.mem_singleton.1 hc]
    exact Text.isBlank_newline

/-- Texts on lines of their own are read one after another. -/
lemma Lexes.newline {cs more : List Char} {ts us : List Token} (h : Lexes cs ts)
    (hmore : Lexes more us) : Lexes (cs ++ '\n' :: more) (ts ++ us) := by
  obtain ⟨ps, tail, ⟨hpieces, htail⟩, rfl⟩ := h
  apply (hpieces.newline more).lexes
  rw [← List.singleton_append, ← List.append_assoc]
  exact hmore.blanks (isBlank_append_newline htail)

/-- The scan starts behind white space. -/
lemma scan_append_blanks {blanks cs : List Char} (h : ∀ c ∈ blanks, Text.isBlank c) :
    scan (blanks ++ cs) = scan cs := by
  have hnext : next (blanks ++ cs) = next cs := next_append_blanks h
  cases hcs : next cs with
  | done => rw [scan_done hcs, scan_done (by rw [hnext, hcs])]
  | token t rest => rw [scan_token hcs, scan_token (by rw [hnext, hcs])]
  | invalid text rest => rw [scan_invalid hcs, scan_invalid (by rw [hnext, hcs])]

/-- A text that is read does not change how the scan goes on in the next line, nor how it fails
there. -/
lemma lex_newline {a : String} {ts : List Token} (h : lex a = .ok ts) (b : String) :
    lex (a ++ "\n" ++ b) = (lex b).map (ts ++ ·) := by
  obtain ⟨ps, tail, ⟨hpieces, htail⟩, rfl⟩ := (lex_eq_ok_iff a ts).1 h
  have hsource : (a ++ "\n" ++ b).toList = a.toList ++ '\n' :: b.toList := by simp
  obtain ⟨hlexemes, hstop⟩ := (hpieces.newline b.toList).scan _ le_rfl
  have hrest : scan (tail ++ '\n' :: b.toList) = scan b.toList := by
    rw [← List.singleton_append, ← List.append_assoc,
      scan_append_blanks (isBlank_append_newline htail)]
  rw [hrest] at hlexemes hstop
  have htokens := congrArg (List.map Prod.fst) hlexemes
  rw [List.map_append, map_fst_places, map_fst_places, map_fst_ends] at htokens
  unfold lex
  simp only [hsource, hstop, htokens]
  cases (scan b.toList).stop <;> rfl

/-- Where a newline stands behind a text that is read, whatever this text ends with, the next one is
read as if it stood alone: its tokens come behind the others, or it fails with the same text. -/
theorem lines_are_read_apart {a : String} {ts : List Token} (h : lex a = .ok ts) (b : String) :
    (∀ us, lex b = .ok us → lex (a ++ "\n" ++ b) = .ok (ts ++ us)) ∧
      ∀ e, lex b = .error e → lex (a ++ "\n" ++ b) = .error e := by
  have hjoined := lex_newline h b
  constructor
  · intro us hus
    rw [hjoined, hus]
    rfl
  · intro e he
    rw [hjoined, he]
    rfl

/-- A comment that a carriage return ends, in front of a name and of an open quote. A name in front
of a name stays by itself too. -/
theorem lines_are_read_apart_behind_comment :
    lex "p // c\r" = .ok [⟨.name, "p"⟩, ⟨.comment, "c"⟩] ∧
      lex "p // c\r\nq-1" = .ok [⟨.name, "p"⟩, ⟨.comment, "c"⟩, ⟨.name, "q-1"⟩] ∧
      lex "p // c\r\n=\"d" = .error ⟨"\"d"⟩ ∧
      lex "p\nq-1" = .ok [⟨.name, "p"⟩, ⟨.name, "q-1"⟩] := by
  have hcomment : lex "p // c\r" = .ok [⟨.name, "p"⟩, ⟨.comment, "c"⟩] := by decide +kernel
  have hname : lex "p" = .ok [⟨.name, "p"⟩] := by decide +kernel
  have hread : lex "q-1" = .ok [⟨.name, "q-1"⟩] := by decide +kernel
  have hopen : lex "=\"d" = .error ⟨"\"d"⟩ := by decide +kernel
  exact ⟨hcomment, (lines_are_read_apart hcomment "q-1").1 _ hread,
    (lines_are_read_apart hcomment "=\"d").2 _ hopen, (lines_are_read_apart hname "q-1").1 _ hread⟩

/-! ### The tokens that a text can have -/

/-- Whether a value can stand in a lexeme of its kind. A value of a symbol is none. -/
def IsLexical (t : Token) : Prop :=
  match t.kind with
  | .text => IsBody t.value.toList
  | .comment => '\n' ∉ t.value.toList
  | .name => IsName t.value.toList
  | _ => True

lemma dropSpace_subset (line : List Char) : dropSpace line ⊆ line := by
  unfold dropSpace
  split
  · exact List.subset_cons_self _ _
  · exact List.Subset.refl _

lemma dropReturn_subset (line : List Char) : dropReturn line ⊆ line := by
  unfold dropReturn
  split
  · exact List.dropLast_subset line
  · exact List.Subset.refl _

lemma Spells.isLexical {t : Token} {lexeme after : List Char} (h : Spells t lexeme after) :
    t.IsLexical := by
  cases h with
  | text hbody => simpa [IsLexical] using hbody
  | @comment line _ hline _ =>
    have hcontent : '\n' ∉ dropSpace (dropReturn line) := by
      intro hc
      exact hline (dropReturn_subset line (dropSpace_subset _ hc))
    simpa [IsLexical] using hcontent
  | name hname => simpa [IsLexical] using hname
  | symbol hc =>
    unfold Kind.ofSymbol? at hc
    split at hc <;> cases hc <;> trivial

lemma Lexes.isLexical {cs : List Char} {ts : List Token} (h : Lexes cs ts) :
    ∀ t ∈ ts, t.IsLexical := by
  obtain ⟨ps, tail, ⟨hpieces, -⟩, rfl⟩ := h
  induction hpieces with
  | nil => simp
  | cons _ hspells _ ih =>
    rw [List.map_cons, List.forall_mem_cons]
    exact ⟨hspells.isLexical, ih⟩

lemma Spells.value_subset {t : Token} {lexeme after : List Char} (h : Spells t lexeme after) :
    t.value.toList ⊆ lexeme := by
  cases h with
  | text =>
    rw [String.toList_ofList]
    intro c hc
    simp [hc]
  | @comment line =>
    rw [String.toList_ofList]
    intro c hc
    have hline : c ∈ line := dropReturn_subset line (dropSpace_subset _ hc)
    simp [hline]
  | name =>
    rw [String.toList_ofList]
    exact List.Subset.refl _
  | symbol => exact List.nil_subset _

/-- The characters of a token come from the text. -/
lemma Lexes.value_subset {cs : List Char} {ts : List Token} (h : Lexes cs ts) :
    ∀ t ∈ ts, t.value.toList ⊆ cs := by
  obtain ⟨ps, tail, ⟨hpieces, -⟩, rfl⟩ := h
  induction hpieces with
  | nil => simp
  | @cons p ps after rest _ hspells _ ih =>
    rw [List.map_cons, List.forall_mem_cons]
    constructor
    · intro c hc
      simp [hspells.value_subset hc]
    · intro t ht c hc
      simp [ih t ht hc]

end TagCall.Token
