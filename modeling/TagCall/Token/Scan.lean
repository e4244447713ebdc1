import TagCall.Text.Blank
import TagCall.Token.Basic

/-!
Scanning source text into tokens. `next` takes one token off the front and always leaves less than
it was given (`next_length`), so `scan` takes them all. Where no token can be taken, the scan stops
with the offending text and with the place where it stood.
-/

namespace TagCall.Token

/-- Text that no token can start with: one character, or an open quote and all that follows it. -/
structure Invalid where
  text : String
  deriving DecidableEq, Repr

def Invalid.message (e : Invalid) : String :=
  "Invalid token: " ++ Text.quoted e.text

/-- Names are made of ASCII letters, ASCII digits and hyphens. -/
def isNameChar (c : Char) : Bool :=
  c.isAlphanum || c = '-'

/-- The characters that may follow a backslash in quoted text. -/
def isEscape (c : Char) : Bool :=
  c = '"' || c = 'n' || c = 't' || c = 'u' || c = '\\'

/-- Splits quoted text at its closing quote, escapes untouched. Fails with what is left at a
backslash that starts no escape, or with nothing left if the quote is never closed. -/
def quotedBody : List Char → Except (List Char) (List Char × List Char)
  | [] => .error []
  | ['\\'] => .error ['\\']
  | '\\' :: c :: rest =>
    if isEscape c then (quotedBody rest).map fun (body, left) => ('\\' :: c :: body, left)
    else .error ('\\' :: c :: rest)
  | c :: rest =>
    if c = '"' then .ok ([], rest)
    else (quotedBody rest).map fun (body, left) => (c :: body, left)

/-- What a comment says: its line after the slashes, less one carriage return at the end and then
one space at the start. -/
def commentText (line : List Char) : List Char :=
  let line := if line.getLast? = some '\r' then line.dropLast else line
  match line with
  | ' ' :: rest => rest
  | rest => rest

inductive Step where
  | done
  | token (t : Token) (rest : List Char)
  | invalid (text rest : List Char)

/-- The next token, after the white space before it. -/
def next (cs : List Char) : Step :=
  match cs.dropWhile Text.isBlank with
  | [] => .done
  | '"' :: rest =>
    match quotedBody rest with
    | .ok (body, left) => .token ⟨.text, String.ofList body⟩ left
    | .error left => .invalid ('"' :: rest) left
  | '/' :: '/' :: rest =>
    .token ⟨.comment, String.ofList (commentText (rest.takeWhile (· ≠ '\n')))⟩
      (rest.dropWhile (· ≠ '\n'))
  | c :: rest =>
    if isNameChar c then
      .token ⟨.name, String.ofList (c :: rest.takeWhile isNameChar)⟩ (rest.dropWhile isNameChar)
    else
      match Kind.ofSymbol? c with
      | some kind => .token ⟨kind, ""⟩ rest
      | none => .invalid [c] (c :: rest)

theorem length_dropWhile_le {α : Type} (p : α → Bool) (l : List α) :
    (l.dropWhile p).length ≤ l.length :=
  (List.dropWhile_suffix p).length_le

theorem quotedBody_length {cs body rest : List Char} (h : quotedBody cs = .ok (body, rest)) :
    rest.length < cs.length := by
  fun_induction quotedBody cs generalizing body with
  | case1 | case2 | case4 => cases h
  | case3 c tail _ ih =>
    rcases hq : quotedBody tail with left | ⟨inner, left⟩
    · simp [hq, Except.map] at h
    · simp only [hq, Except.map, Except.ok.injEq, Prod.mk.injEq] at h
      obtain ⟨-, rfl⟩ := h
      have := ih hq
      simp only [List.length_cons]
      omega
  | case5 tail =>
    simp only [Except.ok.injEq, Prod.mk.injEq] at h
    simp [h.2]
  | case6 c tail _ _ _ ih =>
    rcases hq : quotedBody tail with left | ⟨inner, left⟩
    · simp [hq, Except.map] at h
    · simp only [hq, Except.map, Except.ok.injEq, Prod.mk.injEq] at h
      obtain ⟨-, rfl⟩ := h
      have := ih hq
      simp only [List.length_cons]
      omega

theorem next_length {cs rest : List Char} {t : Token} (h : next cs = .token t rest) :
    rest.length < cs.length := by
  have blanks := length_dropWhile_le Text.isBlank cs
  unfold next at h
  split at h
  · cases h
  · rename_i tail heq
    split at h
    · rename_i body left hq
      have := quotedBody_length hq
      simp only [Step.token.injEq] at h
      rw [heq] at blanks
      simp only [List.length_cons] at blanks
      rw [← h.2]
      omega
    · cases h
  · rename_i tail heq
    simp only [Step.token.injEq] at h
    have := length_dropWhile_le (fun c => decide (c ≠ '\n')) tail
    rw [heq] at blanks
    simp only [List.length_cons] at blanks
    rw [← h.2]
    omega
  · rename_i c tail _ _ heq
    rw [heq] at blanks
    simp only [List.length_cons] at blanks
    split at h
    · simp only [Step.token.injEq] at h
      have := length_dropWhile_le isNameChar tail
      rw [← h.2]
      omega
    · split at h
      · simp only [Step.token.injEq] at h
        rw [← h.2]
        omega
      · cases h

/-- All tokens of a text: each with what is left after it, and, where the scan could not go on,
the offending text with what was left there. -/
structure Scan where
  lexemes : List (Token × List Char)
  stop : Option (Invalid × List Char)

def scan (cs : List Char) : Scan :=
  match h : next cs with
  | .done => ⟨[], none⟩
  | .invalid text rest => ⟨[], some (⟨String.ofList text⟩, rest)⟩
  | .token t rest =>
    have := next_length h
    let after := scan rest
    ⟨(t, rest) :: after.lexemes, after.stop⟩
termination_by cs.length

theorem scan_done {cs : List Char} (h : next cs = .done) : scan cs = ⟨[], none⟩ := by
  rw [scan]
  split <;> simp_all

theorem scan_invalid {cs text rest : List Char} (h : next cs = .invalid text rest) :
    scan cs = ⟨[], some (⟨String.ofList text⟩, rest)⟩ := by
  rw [scan]
  split <;> simp_all

theorem scan_token {cs rest : List Char} {t : Token} (h : next cs = .token t rest) :
    scan cs = ⟨(t, rest) :: (scan rest).lexemes, (scan rest).stop⟩ := by
  rw [scan]
  split <;> simp_all

/-- The tokens of a source text, all of them or none. -/
def lex (source : String) : Except Invalid (List Token) :=
  let all := scan source.toList
  match all.stop with
  | none => .ok (all.lexemes.map (·.1))
  | some (e, _) => .error e

/-- The tokens read before the scan ended, each with the position right after it; the error that
ended it, if any; and the position where it ended. Positions count characters from 0. -/
structure Trace where
  tokens : List (Token × Nat)
  stop : Option Invalid
  position : Nat

def trace (source : String) : Trace :=
  let cs := source.toList
  let all := scan cs
  let position (rest : List Char) := cs.length - rest.length
  { tokens := all.lexemes.map fun (t, rest) => (t, position rest)
    stop := all.stop.map (·.1)
    position := position ((all.stop.map (·.2)).getD []) }

end TagCall.Token
