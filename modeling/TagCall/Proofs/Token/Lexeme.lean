import Mathlib.Data.List.TakeWhile
import Mathlib.Tactic.Lemma
import TagCall.Token.Scan

/-!
# Lexemes

How each token is written in a source text, as a grammar over characters. One step of the scan takes
a lexeme off the front where one stands there (`next_of_spells`), and every step is one of these: it
ends behind white space, takes a lexeme, or stops at text that starts none (`next_finds`).
-/

namespace TagCall.Token

/-- What may stand between two quotes: characters other than quotes and backslashes, and escapes. -/
inductive IsBody : List Char → Prop where
  | nil : IsBody []
  | plain {c : Char} {body : List Char} :
    c ≠ '"' → c ≠ '\\' → IsBody body → IsBody (c :: body)
  | escape {c : Char} {body : List Char} :
    c ∈ ['"', 'n', 't', 'u', '\\'] → IsBody body → IsBody ('\\' :: c :: body)

def IsName (word : List Char) : Prop :=
  word ≠ [] ∧ ∀ c ∈ word, isNameChar c

/-- A line less one carriage return at its end. -/
def dropReturn (line : List Char) : List Char :=
  if line.getLast? = some '\r' then line.dropLast else line

/-- A line less one space at its start. -/
def dropSpace : List Char → List Char
  | ' ' :: line => line
  | line => line

/-- How a token is written where `after` follows. Only a comment and a name depend on what follows:
a comment reaches to the end of its line, and a name as far as it can. -/
inductive Spells : Token → List Char → List Char → Prop where
  | text {body after : List Char} :
    IsBody body → Spells ⟨.text, String.ofList body⟩ ('"' :: (body ++ ['"'])) after
  | comment {line after : List Char} :
    '\n' ∉ line → (∀ c ∈ after.head?, c = '\n') →
      Spells ⟨.comment, String.ofList (dropSpace (dropReturn line))⟩ ('/' :: '/' :: line) after
  | name {word after : List Char} :
    IsName word → (∀ c ∈ after.head?, ¬isNameChar c) →
      Spells ⟨.name, String.ofList word⟩ word after
  | symbol {kind : Kind} {c : Char} {after : List Char} :
    Kind.ofSymbol? c = some kind → Spells ⟨kind, ""⟩ [c] after

/-- Text where no lexeme can start, with what follows it: a quote that no later one closes, and
everything behind it, or one character that no rule takes. -/
inductive Offends : List Char → List Char → Prop where
  | quote {tail : List Char} :
    (∀ body after, IsBody body → tail ≠ body ++ '"' :: after) → Offends ('"' :: tail) []
  | char {c : Char} {after : List Char} :
    ¬Text.isBlank c → c ≠ '"' → ¬isNameChar c → Kind.ofSymbol? c = none →
      ¬(c = '/' ∧ after.head? = some '/') → Offends [c] after

/-! ### Runs of characters of one class -/

lemma takeWhile_append_of_run {p : Char → Bool} {run after : List Char}
    (hrun : ∀ c ∈ run, p c) (hafter : ∀ c ∈ after.head?, ¬p c) :
    (run ++ after).takeWhile p = run := by
  rw [List.takeWhile_append_of_pos hrun]
  cases after with
  | nil => simp
  | cons c after => simp [hafter c rfl]

lemma dropWhile_append_of_run {p : Char → Bool} {run after : List Char}
    (hrun : ∀ c ∈ run, p c) (hafter : ∀ c ∈ after.head?, ¬p c) :
    (run ++ after).dropWhile p = after := by
  rw [List.dropWhile_append_of_pos hrun]
  cases after with
  | nil => rfl
  | cons c after => simp [hafter c rfl]

lemma not_of_mem_head?_dropWhile {p : Char → Bool} {cs : List Char} :
    ∀ c ∈ (cs.dropWhile p).head?, ¬p c := by
  intro c hc
  have h := List.head?_dropWhile_not p cs
  rw [hc] at h
  simpa using h

/-! ### Quoted text -/

lemma isEscape_iff (c : Char) : isEscape c = true ↔ c ∈ ['"', 'n', 't', 'u', '\\'] := by
  simp [isEscape, or_assoc]

lemma quotedBody_append_quote {body : List Char} (h : IsBody body) (after : List Char) :
    quotedBody (body ++ '"' :: after) = .ok (body, after) := by
  induction h with
  | nil => simp [quotedBody]
  | plain hq hb _ ih =>
    rw [List.cons_append, quotedBody]
    · rw [if_neg hq, ih]
      rfl
    · simp [hb]
    · simp [hb]
  | escape hc _ ih =>
    rw [List.cons_append, List.cons_append, quotedBody, if_pos ((isEscape_iff _).2 hc), ih]
    rfl

lemma map_eq_ok {α β ε : Type} {f : α → β} {x : Except ε α} {b : β} (h : x.map f = .ok b) :
    ∃ a, x = .ok a ∧ f a = b := by
  cases x with
  | error e => cases h
  | ok a => exact ⟨a, rfl, Except.ok.inj h⟩

lemma isBody_of_quotedBody {cs body after : List Char} (h : quotedBody cs = .ok (body, after)) :
    IsBody body ∧ cs = body ++ '"' :: after := by
  fun_induction quotedBody cs generalizing body with
  | case1 | case2 | case4 => cases h
  | case3 c rest hc ih =>
    obtain ⟨⟨inner, left⟩, hq, hinner⟩ := map_eq_ok h
    obtain ⟨rfl, rfl⟩ := Prod.mk.inj hinner
    obtain ⟨hbody, rfl⟩ := ih hq
    exact ⟨.escape ((isEscape_iff c).1 hc) hbody, rfl⟩
  | case5 rest =>
    obtain ⟨rfl, rfl⟩ := Prod.mk.inj (Except.ok.inj h)
    exact ⟨.nil, rfl⟩
  | case6 c rest hone hpair hc ih =>
    obtain ⟨⟨inner, left⟩, hq, hinner⟩ := map_eq_ok h
    obtain ⟨rfl, rfl⟩ := Prod.mk.inj hinner
    obtain ⟨hbody, rfl⟩ := ih hq
    have hb : c ≠ '\\' := by
      intro hb
      cases hinner : inner ++ '"' :: left with
      | nil => exact hone hb hinner
      | cons d tail => exact hpair d tail hb hinner
    exact ⟨.plain hc hb hbody, rfl⟩

instance (body : List Char) : Decidable (IsBody body) :=
  decidable_of_iff (quotedBody (body ++ ['"']) = .ok (body, []))
    ⟨fun h => (isBody_of_quotedBody h).1, fun h => quotedBody_append_quote h []⟩

instance (word : List Char) : Decidable (IsName word) :=
  decidable_of_iff (word ≠ [] ∧ word.all isNameChar) (by rw [List.all_eq_true]; rfl)

/-! ### The first character of a lexeme -/

lemma toNat_bounds_of_isNameChar {c : Char} (h : isNameChar c) : 45 ≤ c.toNat ∧ c.toNat ≤ 122 := by
  rw [isNameChar, Bool.or_eq_true, decide_eq_true_eq] at h
  rcases h with h | rfl
  · change ((decide ('A'.val ≤ c.val ∧ c.val ≤ 'Z'.val) ||
      (decide ('a'.val ≤ c.val) && decide (c.val ≤ 'z'.val))) ||
      (decide ('0'.val ≤ c.val) && decide (c.val ≤ '9'.val))) = true at h
    simp only [Bool.or_eq_true, Bool.and_eq_true, decide_eq_true_eq,
      UInt32.le_iff_toNat_le] at h
    change ((65 ≤ c.toNat ∧ c.toNat ≤ 90) ∨ 97 ≤ c.toNat ∧ c.toNat ≤ 122) ∨
      48 ≤ c.toNat ∧ c.toNat ≤ 57 at h
    omega
  · decide

lemma not_isBlank_of_isNameChar {c : Char} (h : isNameChar c) : ¬Text.isBlank c := by
  have hbounds := toNat_bounds_of_isNameChar h
  simp only [Text.isBlank, Bool.or_eq_true, Bool.and_eq_true, decide_eq_true_eq, beq_iff_eq]
  omega

/-- A symbol is neither white space nor the start of a lexeme of another kind. -/
lemma symbol_char {c : Char} {kind : Kind} (h : Kind.ofSymbol? c = some kind) :
    ¬Text.isBlank c ∧ c ≠ '"' ∧ c ≠ '/' ∧ ¬isNameChar c := by
  unfold Kind.ofSymbol? at h
  split at h <;> first | decide | cases h

lemma Spells.head {t : Token} {lexeme after : List Char} (h : Spells t lexeme after) :
    ∃ c tail, lexeme = c :: tail ∧ ¬Text.isBlank c := by
  cases h with
  | text => exact ⟨_, _, rfl, by decide⟩
  | comment => exact ⟨_, _, rfl, by decide⟩
  | name hname =>
    obtain ⟨hne, hchars⟩ := hname
    obtain ⟨c, tail, rfl⟩ := List.exists_cons_of_ne_nil hne
    exact ⟨c, tail, rfl, not_isBlank_of_isNameChar (hchars c (by simp))⟩
  | symbol hc => exact ⟨_, _, rfl, (symbol_char hc).1⟩

/-! ### One step of the scan -/

lemma next_append_blanks {blanks cs : List Char} (h : ∀ c ∈ blanks, Text.isBlank c) :
    next (blanks ++ cs) = next cs := by
  unfold next
  rw [List.dropWhile_append_of_pos h]

lemma commentText_eq (line : List Char) : commentText line = dropSpace (dropReturn line) := by
  unfold commentText dropSpace dropReturn
  rfl

lemma next_quote (tail : List Char) :
    next ('"' :: tail) =
      match quotedBody tail with
      | .ok (body, left) => .token ⟨.text, String.ofList body⟩ left
      | .error left => .invalid ('"' :: tail) left := by
  unfold next
  rw [List.dropWhile_cons_of_neg (by decide)]
  rfl

lemma next_slashes (tail : List Char) :
    next ('/' :: '/' :: tail) =
      .token ⟨.comment, String.ofList (dropSpace (dropReturn (tail.takeWhile (· ≠ '\n'))))⟩
        (tail.dropWhile (· ≠ '\n')) := by
  unfold next
  rw [List.dropWhile_cons_of_neg (by decide)]
  simp only [commentText_eq]

/-- A step at a character that opens neither quoted text nor a comment. -/
lemma next_cons {c : Char} {tail : List Char} (hblank : ¬Text.isBlank c) (hquote : c ≠ '"')
    (hslash : ¬(c = '/' ∧ tail.head? = some '/')) :
    next (c :: tail) =
      if isNameChar c then
        .token ⟨.name, String.ofList (c :: tail.takeWhile isNameChar)⟩ (tail.dropWhile isNameChar)
      else
        match Kind.ofSymbol? c with
        | some kind => .token ⟨kind, ""⟩ tail
        | none => .invalid [c] (c :: tail) := by
  unfold next
  rw [List.dropWhile_cons_of_neg hblank]
  split
  · rename_i h
    cases h
  · rename_i h
    exact absurd (List.cons.inj h).1 hquote
  · rename_i h
    obtain ⟨rfl, rfl⟩ := List.cons.inj h
    exact absurd ⟨rfl, rfl⟩ hslash
  · rename_i h
    obtain ⟨rfl, rfl⟩ := List.cons.inj h
    rfl

lemma next_of_spells {t : Token} {lexeme after : List Char} (h : Spells t lexeme after) :
    next (lexeme ++ after) = .token t after := by
  cases h with
  | text hbody =>
    rw [List.cons_append, List.append_assoc, next_quote]
    simp only [List.singleton_append, quotedBody_append_quote hbody]
  | @comment line _ hline hafter =>
    have hrun : ∀ c ∈ line, decide (c ≠ '\n') := by
      intro c hc
      simpa using ne_of_mem_of_not_mem hc hline
    have hend : ∀ c ∈ after.head?, ¬decide (c ≠ '\n') := by
      simpa using hafter
    rw [List.cons_append, List.cons_append, next_slashes, takeWhile_append_of_run hrun hend,
      dropWhile_append_of_run hrun hend]
  | name hname hafter =>
    obtain ⟨hne, hchars⟩ := hname
    obtain ⟨c, tail, rfl⟩ := List.exists_cons_of_ne_nil hne
    have hc : isNameChar c := hchars c (by simp)
    have htail : ∀ d ∈ tail, isNameChar d := fun d hd => hchars d (by simp [hd])
    have hquote : c ≠ '"' := by
      rintro rfl
      exact absurd hc (by decide)
    have hslash : c ≠ '/' := by
      rintro rfl
      exact absurd hc (by decide)
    rw [List.cons_append, next_cons (not_isBlank_of_isNameChar hc) hquote (fun h => hslash h.1),
      if_pos hc, takeWhile_append_of_run htail hafter, dropWhile_append_of_run htail hafter]
  | symbol hc =>
    obtain ⟨hblank, hquote, hslash, hname⟩ := symbol_char hc
    rw [List.singleton_append, next_cons hblank hquote (fun h => hslash h.1), if_neg hname, hc]

/-- What a step finds behind the white space in front: the end, a lexeme, or text that starts
none. -/
inductive Step.Finds : Step → List Char → Prop where
  | done : Step.done.Finds []
  | token {t : Token} {lexeme rest : List Char} :
    Spells t lexeme rest → (Step.token t rest).Finds (lexeme ++ rest)
  | invalid {text after left : List Char} :
    Offends text after → (Step.invalid text left).Finds (text ++ after)

lemma next_finds_quote (tail : List Char) : (next ('"' :: tail)).Finds ('"' :: tail) := by
  rw [next_quote]
  split
  · rename_i body left hq
    obtain ⟨hbody, rfl⟩ := isBody_of_quotedBody hq
    have hspells : Spells ⟨.text, String.ofList body⟩ ('"' :: (body ++ ['"'])) left := .text hbody
    have h := Step.Finds.token hspells
    rwa [List.cons_append, List.append_assoc] at h
  · rename_i left hq
    have hopen : ∀ body after, IsBody body → tail ≠ body ++ '"' :: after := by
      rintro body after hbody rfl
      rw [quotedBody_append_quote hbody] at hq
      cases hq
    have h : (Step.invalid ('"' :: tail) left).Finds ('"' :: tail ++ []) := .invalid (.quote hopen)
    rwa [List.append_nil] at h

lemma next_finds_slashes (tail : List Char) :
    (next ('/' :: '/' :: tail)).Finds ('/' :: '/' :: tail) := by
  have hline : '\n' ∉ tail.takeWhile (· ≠ '\n') := by
    intro h
    simpa using List.mem_takeWhile_imp h
  have hafter : ∀ c ∈ (tail.dropWhile (· ≠ '\n')).head?, c = '\n' := by
    intro c hc
    simpa using not_of_mem_head?_dropWhile c hc
  have h := Step.Finds.token (Spells.comment hline hafter)
  rwa [List.cons_append, List.cons_append, List.takeWhile_append_dropWhile, ← next_slashes] at h

lemma next_finds_cons {c : Char} {tail : List Char} (hblank : ¬Text.isBlank c) (hquote : c ≠ '"')
    (hslash : ¬(c = '/' ∧ tail.head? = some '/')) : (next (c :: tail)).Finds (c :: tail) := by
  rw [next_cons hblank hquote hslash]
  split
  · rename_i hname
    have hword : IsName (c :: tail.takeWhile isNameChar) := by
      refine ⟨by simp, ?_⟩
      intro d hd
      rcases List.mem_cons.1 hd with rfl | hd
      · exact hname
      · exact List.mem_takeWhile_imp hd
    have hafter : ∀ d ∈ (tail.dropWhile isNameChar).head?, ¬isNameChar d :=
      not_of_mem_head?_dropWhile
    have h := Step.Finds.token (Spells.name hword hafter)
    rwa [List.cons_append, List.takeWhile_append_dropWhile] at h
  · rename_i hname
    split
    · rename_i kind hkind
      exact .token (.symbol hkind)
    · rename_i hkind
      exact .invalid (.char hblank hquote hname hkind hslash)

lemma next_finds_of_not_blank {cs : List Char} (h : ∀ c ∈ cs.head?, ¬Text.isBlank c) :
    (next cs).Finds cs := by
  rcases cs with - | ⟨c, tail⟩
  · exact .done
  · by_cases hquote : c = '"'
    · rw [hquote]
      exact next_finds_quote tail
    · by_cases hslash : c = '/' ∧ tail.head? = some '/'
      · obtain ⟨rest, rfl⟩ := List.head?_eq_some_iff.1 hslash.2
        rw [hslash.1]
        exact next_finds_slashes rest
      · exact next_finds_cons (h c rfl) hquote hslash

/-- Every step of the scan does what it finds behind the white space in front. -/
lemma next_finds (cs : List Char) :
    ∃ blanks tail, cs = blanks ++ tail ∧ (∀ c ∈ blanks, Text.isBlank c) ∧ (next cs).Finds tail := by
  have hblanks : ∀ c ∈ cs.takeWhile Text.isBlank, Text.isBlank c :=
    fun _ => List.mem_takeWhile_imp
  have hsplit : cs = cs.takeWhile Text.isBlank ++ cs.dropWhile Text.isBlank :=
    List.takeWhile_append_dropWhile.symm
  refine ⟨_, _, hsplit, hblanks, ?_⟩
  rw [hsplit, next_append_blanks hblanks, ← hsplit]
  exact next_finds_of_not_blank not_of_mem_head?_dropWhile

end TagCall.Token
