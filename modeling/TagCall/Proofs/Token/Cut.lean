import TagCall.Proofs.Token.Lexeme

/-!
# Cutting a source text into lexemes

A source text is read exactly if it can be cut into lexemes with white space between them, and there
is at most one such cut. The scan stops right behind each lexeme. Where no cut exists, the scan fails
at the first place behind which no lexeme stands, and the text before that place has a cut.
-/

namespace TagCall.Token

/-- White space, and the lexeme of a token behind it. -/
structure Piece where
  blanks : List Char
  lexeme : List Char
  token : Token

def Piece.length (p : Piece) : Nat :=
  p.blanks.length + p.lexeme.length

/-- A text that starts with the given pieces, and what is left behind them. -/
inductive Pieces : List Char → List Piece → List Char → Prop where
  | nil {rest : List Char} : Pieces rest [] rest
  | cons {p : Piece} {ps : List Piece} {after rest : List Char} :
    (∀ c ∈ p.blanks, Text.isBlank c) → Spells p.token p.lexeme after → Pieces after ps rest →
      Pieces (p.blanks ++ (p.lexeme ++ after)) (p :: ps) rest

/-- A whole text in pieces, with white space behind the last. -/
def Cut (cs : List Char) (ps : List Piece) (tail : List Char) : Prop :=
  Pieces cs ps tail ∧ ∀ c ∈ tail, Text.isBlank c

/-- The tokens of a text, by its cut. -/
def Lexes (cs : List Char) (ts : List Token) : Prop :=
  ∃ ps tail, Cut cs ps tail ∧ ps.map (·.token) = ts

/-- The tokens of pieces, each with the end of its lexeme, where the first piece starts at `start`. -/
def ends : Nat → List Piece → List (Token × Nat)
  | _, [] => []
  | start, p :: ps => (p.token, start + p.length) :: ends (start + p.length) ps

lemma map_fst_ends (start : Nat) (ps : List Piece) :
    (ends start ps).map (·.1) = ps.map (·.token) := by
  induction ps generalizing start with
  | nil => rfl
  | cons p ps ih => simp [ends, ih]

/-! ### What one step says about pieces -/

lemma next_append_lexeme {t : Token} {blanks lexeme after : List Char}
    (hblanks : ∀ c ∈ blanks, Text.isBlank c) (h : Spells t lexeme after) :
    next (blanks ++ (lexeme ++ after)) = .token t after := by
  rw [next_append_blanks hblanks, next_of_spells h]

lemma next_of_blank {cs : List Char} (h : ∀ c ∈ cs, Text.isBlank c) : next cs = .done := by
  rw [← List.append_nil cs, next_append_blanks h]
  rfl

/-- White space ends where a lexeme starts. -/
lemma blanks_inj {t t' : Token} {blanks blanks' lexeme lexeme' after after' : List Char}
    (hb : ∀ c ∈ blanks, Text.isBlank c) (hb' : ∀ c ∈ blanks', Text.isBlank c)
    (h : Spells t lexeme after) (h' : Spells t' lexeme' after')
    (heq : blanks ++ (lexeme ++ after) = blanks' ++ (lexeme' ++ after')) : blanks = blanks' := by
  obtain ⟨c, tail, rfl, hc⟩ := h.head
  obtain ⟨d, tail', rfl, hd⟩ := h'.head
  have hstart : ∀ x ∈ (c :: tail ++ after).head?, ¬Text.isBlank x := by simpa using hc
  have hstart' : ∀ x ∈ (d :: tail' ++ after').head?, ¬Text.isBlank x := by simpa using hd
  rw [← takeWhile_append_of_run hb hstart, heq, takeWhile_append_of_run hb' hstart']

/-- A lexeme stays one where less follows. -/
lemma Spells.shorten {t : Token} {lexeme after more : List Char}
    (h : Spells t lexeme (after ++ more)) : Spells t lexeme after := by
  have hhead : ∀ c ∈ after.head?, c ∈ (after ++ more).head? := by
    intro c hc
    rw [List.head?_append, hc]
    rfl
  cases h with
  | text hbody => exact .text hbody
  | comment hline hafter => exact .comment hline (fun c hc => hafter c (hhead c hc))
  | name hname hafter => exact .name hname (fun c hc => hafter c (hhead c hc))
  | symbol hc => exact .symbol hc

lemma Pieces.shorten {cs tail more : List Char} {ps : List Piece} (h : Pieces cs ps (tail ++ more)) :
    ∃ before, cs = before ++ more ∧ Pieces before ps tail := by
  generalize hrest : tail ++ more = rest at h
  induction h with
  | nil => exact ⟨tail, hrest.symm, .nil⟩
  | cons hblanks hspells _ ih =>
    obtain ⟨before, rfl, hpieces⟩ := ih hrest
    exact ⟨_, by simp only [List.append_assoc], .cons hblanks hspells.shorten hpieces⟩

lemma Pieces.unique {cs tail tail' : List Char} {ps ps' : List Piece} (h : Pieces cs ps tail)
    (htail : ∀ c ∈ tail, Text.isBlank c) (h' : Pieces cs ps' tail')
    (htail' : ∀ c ∈ tail', Text.isBlank c) : ps = ps' ∧ tail = tail' := by
  induction h generalizing ps' with
  | nil =>
    cases h' with
    | nil => exact ⟨rfl, rfl⟩
    | cons hblanks hspells _ =>
      have hdone := next_of_blank htail
      rw [next_append_lexeme hblanks hspells] at hdone
      cases hdone
  | @cons p ps after rest hblanks hspells hpieces ih =>
    generalize hcs : p.blanks ++ (p.lexeme ++ after) = cs at h'
    cases h' with
    | nil =>
      have hdone := next_of_blank htail'
      rw [← hcs, next_append_lexeme hblanks hspells] at hdone
      cases hdone
    | @cons p' ps' after' _ hblanks' hspells' hpieces' =>
      have hstep := next_append_lexeme hblanks hspells
      rw [hcs, next_append_lexeme hblanks' hspells'] at hstep
      obtain ⟨ht, rfl⟩ := Step.token.inj hstep
      have hb := blanks_inj hblanks hblanks' hspells hspells' hcs
      rw [hb, List.append_cancel_left_eq, List.append_cancel_right_eq] at hcs
      have hp : p = p' := by
        cases p
        cases p'
        simp_all
      obtain ⟨rfl, rfl⟩ := ih htail hpieces'
      exact ⟨by rw [hp], rfl⟩

/-! ### What the scan says about pieces -/

/-- The lexemes of a scan by the places where they end, in a text of `total` characters. -/
def places (total : Nat) (lexemes : List (Token × List Char)) : List (Token × Nat) :=
  lexemes.map fun x => (x.1, total - x.2.length)

/-- The scan takes pieces one after another, and goes on behind them. -/
lemma Pieces.scan {cs rest : List Char} {ps : List Piece} (h : Pieces cs ps rest) (total : Nat)
    (htotal : cs.length ≤ total) :
    places total (scan cs).lexemes =
      ends (total - cs.length) ps ++ places total (scan rest).lexemes ∧
    (scan cs).stop = (scan rest).stop := by
  induction h with
  | nil => exact ⟨rfl, rfl⟩
  | @cons p ps after rest hblanks hspells hpieces ih =>
    simp only [List.length_append] at htotal
    obtain ⟨hlexemes, hstop⟩ := ih (by omega)
    have hend : total - after.length =
        total - (p.blanks ++ (p.lexeme ++ after)).length + p.length := by
      simp only [List.length_append, Piece.length]
      omega
    rw [scan_token (next_append_lexeme hblanks hspells)]
    constructor
    · simp only [places, List.map_cons, ends, List.cons_append] at hlexemes ⊢
      rw [hlexemes, hend]
    · exact hstop

/-- Every text starts with pieces, and behind them there is only white space or no lexeme. -/
lemma exists_pieces (cs : List Char) :
    ∃ ps rest, Pieces cs ps rest ∧
      ((∀ c ∈ rest, Text.isBlank c) ∨
        ∃ blanks text after left, rest = blanks ++ (text ++ after) ∧
          (∀ c ∈ blanks, Text.isBlank c) ∧ Offends text after ∧
          next rest = .invalid text left) := by
  fun_induction Token.scan cs with
  | case1 cs h =>
    obtain ⟨blanks, tail, rfl, hblanks, hfinds⟩ := next_finds cs
    rw [h] at hfinds
    cases hfinds
    exact ⟨[], _, .nil, .inl (by simpa using hblanks)⟩
  | case2 cs text left h =>
    obtain ⟨blanks, tail, hcs, hblanks, hfinds⟩ := next_finds cs
    rw [h] at hfinds
    cases hfinds with
    | invalid hoffends =>
      exact ⟨[], cs, .nil, .inr ⟨blanks, text, _, left, hcs, hblanks, hoffends, h⟩⟩
  | case3 cs t rest h _ _ ih =>
    obtain ⟨blanks, tail, rfl, hblanks, hfinds⟩ := next_finds cs
    rw [h] at hfinds
    cases hfinds with
    | @token _ lexeme _ hspells =>
      obtain ⟨ps, last, hpieces, hlast⟩ := ih
      exact ⟨_, last, .cons (p := ⟨blanks, lexeme, t⟩) hblanks hspells hpieces, hlast⟩

lemma map_fst_places (total : Nat) (lexemes : List (Token × List Char)) :
    (places total lexemes).map (·.1) = lexemes.map (·.1) := by
  simp [places]

lemma Pieces.trace {source : String} {ps : List Piece} {rest : List Char}
    (h : Pieces source.toList ps rest) (hrest : (Token.scan rest).lexemes = []) :
    (Token.trace source).tokens = ends 0 ps ∧
      (Token.scan source.toList).lexemes.map (·.1) = ps.map (·.token) := by
  obtain ⟨hlexemes, -⟩ := h.scan source.toList.length le_rfl
  rw [hrest, Nat.sub_self] at hlexemes
  have htokens : places source.toList.length (Token.scan source.toList).lexemes = ends 0 ps := by
    simpa [places] using hlexemes
  refine ⟨htokens, ?_⟩
  rw [← map_fst_places source.toList.length, htokens, map_fst_ends]

lemma Cut.trace {source : String} {ps : List Piece} {tail : List Char}
    (h : Cut source.toList ps tail) :
    (Token.trace source).tokens = ends 0 ps ∧ lex source = .ok (ps.map (·.token)) := by
  obtain ⟨hpieces, htail⟩ := h
  have hscan := scan_done (next_of_blank htail)
  obtain ⟨htrace, htokens⟩ := hpieces.trace (by rw [hscan])
  have hstop := (hpieces.scan source.toList.length le_rfl).2
  rw [hscan] at hstop
  refine ⟨htrace, ?_⟩
  simp only [lex, hstop, htokens]

lemma Pieces.trace_invalid {source : String} {ps : List Piece} {rest text left : List Char}
    (h : Pieces source.toList ps rest) (hrest : next rest = .invalid text left) :
    (Token.trace source).tokens = ends 0 ps ∧ lex source = .error ⟨String.ofList text⟩ := by
  have hscan := scan_invalid hrest
  obtain ⟨htrace, -⟩ := h.trace (by rw [hscan])
  have hstop := (h.scan source.toList.length le_rfl).2
  rw [hscan] at hstop
  refine ⟨htrace, ?_⟩
  simp only [lex, hstop]

lemma lex_eq_ok_iff (source : String) (ts : List Token) :
    lex source = .ok ts ↔ Lexes source.toList ts := by
  constructor
  · intro h
    obtain ⟨ps, rest, hpieces, hblank | ⟨blanks, text, after, left, -, -, -, hnext⟩⟩ :=
      exists_pieces source.toList
    · have hcut : Cut source.toList ps rest := ⟨hpieces, hblank⟩
      rw [hcut.trace.2] at h
      exact ⟨ps, rest, hcut, Except.ok.inj h⟩
    · rw [(hpieces.trace_invalid hnext).2] at h
      cases h
  · rintro ⟨ps, tail, hcut, rfl⟩
    exact hcut.trace.2

/-- The scan accepts exactly the texts that can be cut into lexemes with white space between them.
The cut is unique, and the scan stands at the end of each lexeme right after its token. A text
without a cut fails with an open quote and everything behind it or with one character, and the text
before that has a cut into the tokens that were read. -/
theorem lex_iff_cut (source : String) :
    (∀ ts, lex source = .ok ts ↔ ∃ ps tail, Cut source.toList ps tail ∧ ps.map (·.token) = ts) ∧
    (∀ ps tail, Cut source.toList ps tail →
      (trace source).tokens = ends 0 ps ∧
        ∀ ps' tail', Cut source.toList ps' tail' → ps' = ps ∧ tail' = tail) ∧
    ((∀ ps tail, ¬Cut source.toList ps tail) →
      ∃ before text after ps tail, source.toList = before ++ (text ++ after) ∧
        Offends text after ∧ lex source = .error ⟨String.ofList text⟩ ∧
        Cut before ps tail ∧ (trace source).tokens = ends 0 ps ∧
        lex (String.ofList before) = .ok (ps.map (·.token))) := by
  refine ⟨lex_eq_ok_iff source, ?_, ?_⟩
  · intro ps tail hcut
    refine ⟨hcut.trace.1, ?_⟩
    intro ps' tail' hcut'
    exact hcut'.1.unique hcut'.2 hcut.1 hcut.2
  · intro hnone
    obtain ⟨ps, rest, hpieces, hblank | ⟨blanks, text, after, left, rfl, hblanks, hoffends, hnext⟩⟩ :=
      exists_pieces source.toList
    · exact absurd ⟨hpieces, hblank⟩ (hnone ps rest)
    · obtain ⟨htrace, hlex⟩ := hpieces.trace_invalid hnext
      obtain ⟨before, hbefore, hshort⟩ := hpieces.shorten
      have hcut : Cut before ps blanks := ⟨hshort, hblanks⟩
      refine ⟨before, text, after, ps, blanks, hbefore, hoffends, hlex, hcut, htrace, ?_⟩
      exact (lex_eq_ok_iff _ _).2 ⟨ps, blanks, by rwa [String.toList_ofList], rfl⟩

end TagCall.Token
