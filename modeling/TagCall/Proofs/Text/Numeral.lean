import Mathlib.Data.List.Induction
import Mathlib.Data.Nat.Digits.Defs
import Mathlib.Tactic.Lemma
import TagCall.Proofs.Token.Lexeme
import TagCall.Text.Numeral

/-!
# Whole numbers in text

The texts that are read as a whole number, as a grammar over characters (`integer?_eq_some_iff`).
The decimal form of a number is one of them if it is not too long, and no numeral stands for a
number whose decimal form is.
-/

namespace TagCall.Text

/-- Digits of any script with single underscores between them, and their values. -/
inductive SpellsDigits : List Char → List Nat → Prop where
  | last {c : Char} {d : Nat} : digit? c = some d → SpellsDigits [c] [d]
  | next {c : Char} {d : Nat} {cs : List Char} {ds : List Nat} :
    digit? c = some d → SpellsDigits cs ds → SpellsDigits (c :: cs) (d :: ds)
  | apart {c : Char} {d : Nat} {cs : List Char} {ds : List Nat} :
    digit? c = some d → SpellsDigits cs ds → SpellsDigits (c :: '_' :: cs) (d :: ds)

/-- The signs that may stand in front of digits, by their factor. -/
inductive IsSign : List Char → Int → Prop where
  | none : IsSign [] 1
  | plus : IsSign ['+'] 1
  | minus : IsSign ['-'] (-1)

/-- A whole number in text: blanks, a sign or none, digits within the limit, and blanks. -/
inductive IsNumeral : List Char → Int → Prop where
  | of {before sign digits after : List Char} {factor : Int} {ds : List Nat} :
    (∀ c ∈ before, isNumeralBlank c) → IsSign sign factor → SpellsDigits digits ds →
      ds.length ≤ maxDigits → (∀ c ∈ after, isNumeralBlank c) →
      IsNumeral (before ++ (sign ++ (digits ++ after))) (factor * ofDigits ds)

/-! ### Characters of a class around a text -/

/-- A text without the characters of a class at its two ends. -/
def trimmed (p : Char → Bool) (cs : List Char) : List Char :=
  ((cs.dropWhile p).reverse.dropWhile p).reverse

lemma trimmed_append {p : Char → Bool} {before inner after : List Char}
    (hbefore : ∀ c ∈ before, p c) (hafter : ∀ c ∈ after, p c) (hinner : inner ≠ [])
    (hhead : ∀ c ∈ inner.head?, ¬p c) (hlast : ∀ c ∈ inner.getLast?, ¬p c) :
    trimmed p (before ++ (inner ++ after)) = inner := by
  have hstart : ∀ c ∈ (inner ++ after).head?, ¬p c := by
    obtain ⟨d, tail, rfl⟩ := List.exists_cons_of_ne_nil hinner
    exact hhead
  have hend : ∀ c ∈ inner.reverse.head?, ¬p c := by
    rwa [List.head?_reverse]
  have hback : ∀ c ∈ after.reverse, p c := by
    intro c hc
    exact hafter c (List.mem_reverse.1 hc)
  rw [trimmed, Token.dropWhile_append_of_run hbefore hstart, List.reverse_append,
    Token.dropWhile_append_of_run hback hend, List.reverse_reverse]

lemma exists_trimmed (p : Char → Bool) (cs : List Char) :
    ∃ before after, cs = before ++ (trimmed p cs ++ after) ∧ (∀ c ∈ before, p c) ∧
      ∀ c ∈ after, p c := by
  have hfront : cs.takeWhile p ++ cs.dropWhile p = cs := List.takeWhile_append_dropWhile
  have hback : trimmed p cs ++ ((cs.dropWhile p).reverse.takeWhile p).reverse =
      cs.dropWhile p := by
    rw [trimmed, ← List.reverse_append, List.takeWhile_append_dropWhile, List.reverse_reverse]
  refine ⟨cs.takeWhile p, ((cs.dropWhile p).reverse.takeWhile p).reverse, ?_, ?_, ?_⟩
  · rw [hback, hfront]
  · intro c hc
    exact List.mem_takeWhile_imp hc
  · intro c hc
    exact List.mem_takeWhile_imp (List.mem_reverse.1 hc)

/-- A text without such characters is kept. -/
lemma trimmed_eq_self {p : Char → Bool} {cs : List Char} (h : ∀ c ∈ cs, ¬p c) :
    trimmed p cs = cs := by
  have hfront : cs.dropWhile p = cs := by
    rw [List.dropWhile_eq_self_iff]
    intro hlength
    exact h _ (List.getElem_mem hlength)
  have hback : cs.reverse.dropWhile p = cs.reverse := by
    rw [List.dropWhile_eq_self_iff]
    intro hlength
    exact h _ (List.mem_reverse.1 (List.getElem_mem hlength))
  rw [trimmed, hfront, hback, List.reverse_reverse]

/-! ### Runs of digits -/

lemma SpellsDigits.exists_head {cs : List Char} {ds : List Nat} (h : SpellsDigits cs ds) :
    ∃ c d tail, cs = c :: tail ∧ digit? c = some d := by
  cases h with
  | last hc => exact ⟨_, _, _, rfl, hc⟩
  | next hc _ => exact ⟨_, _, _, rfl, hc⟩
  | apart hc _ => exact ⟨_, _, _, rfl, hc⟩

lemma SpellsDigits.exists_last {cs : List Char} {ds : List Nat} (h : SpellsDigits cs ds) :
    ∃ c d, cs.getLast? = some c ∧ digit? c = some d := by
  induction h with
  | last hc => exact ⟨_, _, rfl, hc⟩
  | next hc _ ih | apart hc _ ih =>
    obtain ⟨c, d, hlast, hd⟩ := ih
    refine ⟨c, d, ?_, hd⟩
    simp [List.getLast?_cons, hlast]

lemma spellsDigits_of_digitRun {cs : List Char} {ds : List Nat} (h : digitRun cs = some ds) :
    SpellsDigits cs ds := by
  fun_induction digitRun cs generalizing ds with
  | case1 => cases h
  | case2 c =>
    obtain ⟨d, hd, rfl⟩ := Option.map_eq_some_iff.1 h
    exact .last hd
  | case3 c rest ih =>
    obtain ⟨d, hd, h⟩ := Option.bind_eq_some_iff.1 h
    obtain ⟨more, hmore, h⟩ := Option.bind_eq_some_iff.1 h
    obtain rfl := Option.some.inj h
    exact .apart hd (ih hmore)
  | case4 c rest _ _ ih =>
    obtain ⟨d, hd, h⟩ := Option.bind_eq_some_iff.1 h
    obtain ⟨more, hmore, h⟩ := Option.bind_eq_some_iff.1 h
    obtain rfl := Option.some.inj h
    exact .next hd (ih hmore)

lemma digitRun_of_spellsDigits {cs : List Char} {ds : List Nat} (h : SpellsDigits cs ds) :
    digitRun cs = some ds := by
  induction h with
  | last hc => simp [digitRun, hc]
  | @next c d cs ds hc hcs ih =>
    -- A digit is no underscore, so the digits behind it are not taken for set apart ones.
    obtain ⟨e, _, tail, rfl, he⟩ := hcs.exists_head
    have hunderscore : e ≠ '_' := by
      rintro rfl
      cases he
    rw [digitRun]
    · simp [hc, ih]
    · simp
    · simp [hunderscore]
  | apart hc _ ih => simp [digitRun, hc, ih]

lemma natural?_eq_some_iff {cs : List Char} {n : Nat} :
    natural? cs = some n ↔
      ∃ ds, SpellsDigits cs ds ∧ ds.length ≤ maxDigits ∧ ofDigits ds = n := by
  constructor
  · intro h
    obtain ⟨ds, hds, h⟩ := Option.bind_eq_some_iff.1 h
    by_cases hlength : ds.length ≤ maxDigits
    · rw [if_pos hlength] at h
      exact ⟨ds, spellsDigits_of_digitRun hds, hlength, Option.some.inj h⟩
    · rw [if_neg hlength] at h
      cases h
  · rintro ⟨ds, hds, hlength, rfl⟩
    simp [natural?, digitRun_of_spellsDigits hds, hlength]

/-! ### Digits are no blanks -/

/-- What holds of the ten digits of every script holds of every digit. -/
lemma forall_digit {p : Char → Bool} (h : ∀ z ∈ zeros, ∀ k < 10, p (Char.ofNat (z + k)))
    {c : Char} {d : Nat} (hc : digit? c = some d) : p c := by
  obtain ⟨z, hz, -⟩ := Option.map_eq_some_iff.1 hc
  have hrange := List.find?_some hz
  simp only [Bool.and_eq_true, decide_eq_true_eq] at hrange
  have hp := h z (List.mem_of_find?_eq_some hz) (c.toNat - z) (by omega)
  rwa [show z + (c.toNat - z) = c.toNat by omega, Char.ofNat_toNat] at hp

lemma not_isNumeralBlank_of_digit {c : Char} {d : Nat} (h : digit? c = some d) :
    ¬isNumeralBlank c := by
  have hall : ∀ z ∈ zeros, ∀ k < 10, !isNumeralBlank (Char.ofNat (z + k)) := by
    decide +kernel
  simpa using forall_digit (p := fun c => !isNumeralBlank c) hall h

/-! ### Numerals -/

lemma IsSign.cases_head {sign : List Char} {factor : Int} (h : IsSign sign factor) :
    sign = [] ∨ ∃ c, sign = [c] ∧ ¬isNumeralBlank c := by
  cases h with
  | none => exact .inl rfl
  | plus => exact .inr ⟨'+', rfl, by decide⟩
  | minus => exact .inr ⟨'-', rfl, by decide⟩

/-- Neither a sign nor a digit is taken for a blank. -/
lemma trimmed_numeral {before sign digits after : List Char} {factor : Int} {ds : List Nat}
    (hbefore : ∀ c ∈ before, isNumeralBlank c) (hsign : IsSign sign factor)
    (hdigits : SpellsDigits digits ds) (hafter : ∀ c ∈ after, isNumeralBlank c) :
    trimmed isNumeralBlank (before ++ (sign ++ (digits ++ after))) = sign ++ digits := by
  obtain ⟨c, d, tail, rfl, hc⟩ := hdigits.exists_head
  obtain ⟨e, _, hlast, he⟩ := hdigits.exists_last
  have hinner : sign ++ c :: tail ≠ [] := by simp
  have hhead : ∀ x ∈ (sign ++ c :: tail).head?, ¬isNumeralBlank x := by
    rcases hsign.cases_head with rfl | ⟨s, rfl, hs⟩
    · simpa using not_isNumeralBlank_of_digit hc
    · simpa using hs
  have hend : ∀ x ∈ (sign ++ c :: tail).getLast?, ¬isNumeralBlank x := by
    have heq : (sign ++ c :: tail).getLast? = some e := by
      rw [List.getLast?_append, hlast]
      rfl
    simpa [heq] using not_isNumeralBlank_of_digit he
  rw [← List.append_assoc sign]
  exact trimmed_append hbefore hafter hinner hhead hend

/-- The number that a sign, or none, and digits stand for. -/
def signed? : List Char → Option Int
  | '-' :: rest => (natural? rest).map fun n : Nat => -(n : Int)
  | '+' :: rest => (natural? rest).map Int.ofNat
  | rest => (natural? rest).map Int.ofNat

lemma integer?_eq_signed? (cs : List Char) :
    integer? cs = signed? (trimmed isNumeralBlank cs) := by
  unfold integer?
  dsimp only
  change _ = signed? ((cs.dropWhile isNumeralBlank).reverse.dropWhile isNumeralBlank).reverse
  generalize ((cs.dropWhile isNumeralBlank).reverse.dropWhile isNumeralBlank).reverse = inner
  split
  · rename_i rest
    rw [signed?]
    cases natural? rest <;> rfl
  · rw [signed?]
  · rename_i hminus hplus
    rw [signed?]
    · exact hminus
    · exact hplus

lemma signed?_eq_some {cs : List Char} {n : Int} (h : signed? cs = some n) :
    ∃ sign factor digits ds, cs = sign ++ digits ∧ IsSign sign factor ∧
      SpellsDigits digits ds ∧ ds.length ≤ maxDigits ∧ n = factor * ofDigits ds := by
  unfold signed? at h
  split at h
  · rename_i rest
    obtain ⟨m, hm, rfl⟩ := Option.map_eq_some_iff.1 h
    obtain ⟨ds, hds, hlength, rfl⟩ := natural?_eq_some_iff.1 hm
    exact ⟨['-'], -1, rest, ds, rfl, .minus, hds, hlength, (Int.neg_one_mul _).symm⟩
  · rename_i rest
    obtain ⟨m, hm, rfl⟩ := Option.map_eq_some_iff.1 h
    obtain ⟨ds, hds, hlength, rfl⟩ := natural?_eq_some_iff.1 hm
    exact ⟨['+'], 1, rest, ds, rfl, .plus, hds, hlength, (Int.one_mul _).symm⟩
  · obtain ⟨m, hm, rfl⟩ := Option.map_eq_some_iff.1 h
    obtain ⟨ds, hds, hlength, rfl⟩ := natural?_eq_some_iff.1 hm
    exact ⟨[], 1, cs, ds, rfl, .none, hds, hlength, (Int.one_mul _).symm⟩

lemma signed?_append {sign digits : List Char} {factor : Int} {ds : List Nat}
    (hsign : IsSign sign factor) (hdigits : SpellsDigits digits ds)
    (hlength : ds.length ≤ maxDigits) :
    signed? (sign ++ digits) = some (factor * ofDigits ds) := by
  have hnatural : natural? digits = some (ofDigits ds) :=
    natural?_eq_some_iff.2 ⟨ds, hdigits, hlength, rfl⟩
  cases hsign with
  | none =>
    -- Without a sign the first character is a digit, so it is not taken for one.
    obtain ⟨c, d, tail, rfl, hc⟩ := hdigits.exists_head
    have hminus : c ≠ '-' := by
      rintro rfl
      cases hc
    have hplus : c ≠ '+' := by
      rintro rfl
      cases hc
    simp [signed?, hminus, hplus, hnatural]
  | plus => simp [signed?, hnatural]
  | minus => simp [signed?, hnatural]

/-- The texts that are read as a number are its numerals. -/
theorem integer?_eq_some_iff {cs : List Char} {n : Int} :
    integer? cs = some n ↔ IsNumeral cs n := by
  rw [integer?_eq_signed?]
  constructor
  · intro h
    obtain ⟨before, after, hcs, hbefore, hafter⟩ := exists_trimmed isNumeralBlank cs
    obtain ⟨sign, factor, digits, ds, hinner, hsign, hdigits, hlength, rfl⟩ := signed?_eq_some h
    rw [hcs, hinner, List.append_assoc]
    exact .of hbefore hsign hdigits hlength hafter
  · rintro ⟨hbefore, hsign, hdigits, hlength, hafter⟩
    rw [trimmed_numeral hbefore hsign hdigits hafter]
    exact signed?_append hsign hdigits hlength

/-- The characters that numerals are made of. -/
def isNumeralChar (c : Char) : Bool :=
  isNumeralBlank c || (digit? c).isSome || c = '+' || c = '-' || c = '_'

lemma SpellsDigits.forall_isNumeralChar {cs : List Char} {ds : List Nat} (h : SpellsDigits cs ds) :
    ∀ c ∈ cs, isNumeralChar c := by
  induction h with
  | last hc => simp [isNumeralChar, hc]
  | next hc _ ih => simpa [isNumeralChar, hc] using ih
  | apart hc _ ih => simpa [isNumeralChar, hc] using ih

lemma IsNumeral.forall_isNumeralChar {cs : List Char} {n : Int} (h : IsNumeral cs n) :
    ∀ c ∈ cs, isNumeralChar c := by
  obtain ⟨hbefore, hsign, hdigits, -, hafter⟩ := h
  rename_i before sign digits after factor ds
  have hblank : ∀ c, isNumeralBlank c → isNumeralChar c := by
    intro c hc
    simp [isNumeralChar, hc]
  have hmark : ∀ c ∈ sign, isNumeralChar c := by
    cases hsign <;> simp [isNumeralChar]
  intro c hc
  rcases List.mem_append.1 hc with hc | hc
  · exact hblank c (hbefore c hc)
  rcases List.mem_append.1 hc with hc | hc
  · exact hmark c hc
  rcases List.mem_append.1 hc with hc | hc
  · exact hdigits.forall_isNumeralChar c hc
  · exact hblank c (hafter c hc)

lemma IsNumeral.ne_nil {cs : List Char} {n : Int} (h : IsNumeral cs n) : cs ≠ [] := by
  obtain ⟨-, -, hdigits, -, -⟩ := h
  obtain ⟨c, _, tail, rfl, -⟩ := hdigits.exists_head
  simp

/-! ### The decimal form of a number -/

lemma SpellsDigits.append {cs : List Char} {ds : List Nat} (h : SpellsDigits cs ds) {c : Char}
    {d : Nat} (hc : digit? c = some d) : SpellsDigits (cs ++ [c]) (ds ++ [d]) := by
  induction h with
  | last he => exact .next he (.last hc)
  | next he _ ih => exact .next he ih
  | apart he _ ih => exact .apart he ih

lemma ofDigits_append (ds : List Nat) (d : Nat) :
    ofDigits (ds ++ [d]) = 10 * ofDigits ds + d := by
  simp [ofDigits]

lemma digit?_digitChar {d : Nat} (h : d < 10) : digit? d.digitChar = some d := by
  have hall : ∀ d < 10, digit? d.digitChar = some d := by
    decide
  exact hall d h

lemma spellsDigits_toDigits (n : Nat) :
    ∃ ds, SpellsDigits (Nat.toDigits 10 n) ds ∧ ofDigits ds = n ∧
      ds.length = (Nat.toDigits 10 n).length := by
  induction n using Nat.strongRecOn with
  | ind n ih =>
    by_cases hn : n < 10
    · rw [Nat.toDigits_of_lt_base hn]
      exact ⟨[n], .last (digit?_digitChar hn), by simp [ofDigits], rfl⟩
    · have hbase : 10 ≤ n := by omega
      obtain ⟨ds, hds, hvalue, hlength⟩ := ih (n / 10) (by omega)
      have hdigit : digit? (n % 10).digitChar = some (n % 10) := digit?_digitChar (by omega)
      rw [Nat.toDigits_of_base_le (by omega) hbase]
      refine ⟨ds ++ [n % 10], hds.append hdigit, ?_, by simp [hlength]⟩
      rw [ofDigits_append, hvalue]
      omega

lemma SpellsDigits.ofDigits_lt {cs : List Char} {ds : List Nat} (h : SpellsDigits cs ds) :
    ofDigits ds < 10 ^ ds.length := by
  have hdigits : ∀ d ∈ ds, d < 10 := by
    induction h with
    | last hc => simpa using digit?_lt hc
    | next hc _ ih | apart hc _ ih => exact List.forall_mem_cons.2 ⟨digit?_lt hc, ih⟩
  clear h
  -- The value grows at the end of the list, so that is where the induction adds digits.
  induction ds using List.reverseRecOn with
  | nil => simp [ofDigits]
  | append_singleton ds d ih =>
    have hds := ih (fun e he => hdigits e (by simp [he]))
    have hd : d < 10 := hdigits d (by simp)
    rw [ofDigits_append, List.length_append, List.length_singleton, Nat.pow_succ]
    omega

lemma hasNumeral_iff {n : Int} : hasNumeral n ↔ n.natAbs < 10 ^ maxDigits := by
  simp [hasNumeral]

lemma hasNumeral_one : hasNumeral 1 := by
  rw [hasNumeral_iff]
  exact Nat.one_lt_pow (by decide) (by decide)

/-- A number is never longer than its numerals. -/
lemma IsNumeral.hasNumeral {cs : List Char} {n : Int} (h : IsNumeral cs n) : hasNumeral n := by
  obtain ⟨-, hsign, hdigits, hlength, -⟩ := h
  rename_i sign digits after factor ds
  have hvalue : ofDigits ds < 10 ^ maxDigits :=
    Nat.lt_of_lt_of_le hdigits.ofDigits_lt (Nat.pow_le_pow_right (by decide) hlength)
  have habs : (factor * ofDigits ds).natAbs = ofDigits ds := by
    cases hsign <;> simp
  rwa [hasNumeral_iff, habs]

lemma isNumeral_toDigits {n : Nat} (h : n < 10 ^ maxDigits) :
    IsNumeral (Nat.toDigits 10 n) n := by
  obtain ⟨ds, hds, hvalue, hlength⟩ := spellsDigits_toDigits n
  have hlimit : ds.length ≤ maxDigits := by
    rw [hlength]
    exact Nat.toDigits_length 10 n maxDigits (by decide) h
  have hblanks : ∀ c ∈ ([] : List Char), isNumeralBlank c := by simp
  have hnumeral := IsNumeral.of hblanks .none hds hlimit hblanks
  rwa [List.nil_append, List.nil_append, List.append_nil, Int.one_mul, hvalue] at hnumeral

end TagCall.Text
