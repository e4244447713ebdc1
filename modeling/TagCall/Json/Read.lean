import TagCall.Json.Write
import TagCall.Text.Digit
import TagCall.Text.Numeral

/-!
Reading JSON. The text must be one value with nothing but white space around it; of two fields with
one key the last counts. Reading goes from left to right and ends at the first thing that is wrong.
-/

namespace TagCall.Json

inductive ReadError where
  | malformed
  /-- A whole number of too many digits. -/
  | overlong (digits : Nat)
  deriving DecidableEq, Repr

def ReadError.message : ReadError → String
  | malformed => "the text is no JSON"
  | overlong digits => Text.overlongNumeral digits

/-- The white space of JSON. -/
def isSpace (c : Char) : Bool :=
  c = ' ' || c = '\t' || c = '\n' || c = '\r'

def skipSpace (cs : List Char) : List Char :=
  cs.dropWhile isSpace

/-- Four hexadecimal digits. -/
def codeUnit? : List Char → Option (Nat × List Char)
  | a :: b :: c :: d :: rest => do
    let a ← Text.hexDigit? a
    let b ← Text.hexDigit? b
    let c ← Text.hexDigit? c
    let d ← Text.hexDigit? d
    return (((a * 16 + b) * 16 + c) * 16 + d, rest)
  | _ => none

/-- The character of a code point. -/
def charOf? (n : Nat) : Option Char :=
  if h : n.isValidChar then some (Char.ofNatAux n h) else none

/-- The character after a backslash and `u`: one code unit, or a pair of surrogates. -/
def escapedUnit? (cs : List Char) : Option (Char × List Char) := do
  let (high, rest) ← codeUnit? cs
  if 0xD800 ≤ high ∧ high < 0xDC00 then
    match rest with
    | '\\' :: 'u' :: rest =>
      let (low, rest) ← codeUnit? rest
      if 0xDC00 ≤ low ∧ low < 0xE000 then
        return (← charOf? (0x10000 + (high - 0xD800) * 0x400 + (low - 0xDC00)), rest)
      else none
    | _ => none
  else return (← charOf? high, rest)

/-- The character that a short escape stands for. -/
def unescape? (c : Char) : Option Char :=
  if c = '"' then some '"'
  else if c = '\\' then some '\\'
  else if c = '/' then some '/'
  else if c = 'n' then some '\n'
  else if c = 'r' then some '\r'
  else if c = 't' then some '\t'
  else if c = 'b' then some '\x08'
  else if c = 'f' then some '\x0c'
  else none

/-- One character of quoted text, or its end. -/
inductive QuotedStep where
  | done (rest : List Char)
  | char (c : Char) (rest : List Char)
  | bad

def quotedStep : List Char → QuotedStep
  | [] => .bad
  | '"' :: rest => .done rest
  | '\\' :: 'u' :: rest =>
    match escapedUnit? rest with
    | some (c, rest) => .char c rest
    | none => .bad
  | '\\' :: c :: rest =>
    match unescape? c with
    | some c => .char c rest
    | none => .bad
  | c :: rest => if c.toNat < 0x20 ∨ c = '\\' then .bad else .char c rest

theorem codeUnit?_length {cs rest : List Char} {n : Nat} (h : codeUnit? cs = some (n, rest)) :
    rest.length < cs.length := by
  unfold codeUnit? at h
  split at h
  · simp only [Option.bind_eq_bind, Option.bind_eq_some_iff, Option.pure_def, Option.some.injEq,
      Prod.mk.injEq] at h
    obtain ⟨_, -, _, -, _, -, _, -, -, rfl⟩ := h
    simp only [List.length_cons]
    omega
  · cases h

theorem escapedUnit?_length {cs rest : List Char} {c : Char}
    (h : escapedUnit? cs = some (c, rest)) : rest.length < cs.length := by
  simp only [escapedUnit?, Option.bind_eq_bind, Option.bind_eq_some_iff, Option.pure_def] at h
  obtain ⟨⟨high, left⟩, hu, h⟩ := h
  have first := codeUnit?_length hu
  simp only at h
  split at h
  · split at h
    · obtain ⟨⟨low, last⟩, hl, h⟩ := Option.bind_eq_some_iff.1 h
      have second := codeUnit?_length hl
      simp only at h
      split at h
      · obtain ⟨_, -, h⟩ := Option.bind_eq_some_iff.1 h
        simp only [Option.some.injEq, Prod.mk.injEq] at h
        simp only [List.length_cons] at first
        rw [← h.2]
        omega
      · cases h
    · cases h
  · obtain ⟨_, -, h⟩ := Option.bind_eq_some_iff.1 h
    simp only [Option.some.injEq, Prod.mk.injEq] at h
    rw [← h.2]
    exact first

theorem quotedStep_length {cs rest : List Char} {c : Char} (h : quotedStep cs = .char c rest) :
    rest.length < cs.length := by
  unfold quotedStep at h
  split at h
  · cases h
  · cases h
  · split at h
    · rename_i hu
      have := escapedUnit?_length hu
      simp only [QuotedStep.char.injEq] at h
      simp only [List.length_cons]
      rw [← h.2]
      omega
    · cases h
  · split at h
    · simp only [QuotedStep.char.injEq] at h
      simp only [List.length_cons]
      rw [← h.2]
      omega
    · cases h
  · split at h
    · cases h
    · simp only [QuotedStep.char.injEq] at h
      simp [h.2]

/-- Quoted text after its opening quote. -/
def quotedText (cs : List Char) : Option (List Char × List Char) :=
  match h : quotedStep cs with
  | .done rest => some ([], rest)
  | .char c rest =>
    have := quotedStep_length h
    (quotedText rest).map fun (s, rest) => (c :: s, rest)
  | .bad => none
termination_by cs.length

/-- A number: digits without a leading zero, and maybe a fraction and an exponent, which make it a
floating-point number. -/
def number (cs : List Char) : Except ReadError (Scalar × List Char) :=
  let (negative, cs) :=
    match cs with
    | '-' :: rest => (true, rest)
    | _ => (false, cs)
  let digits :=
    match cs with
    | '0' :: _ => ['0']
    | _ => cs.takeWhile Char.isDigit
  let rest := cs.drop digits.length
  if digits.isEmpty then .error .malformed
  else
    let fraction :=
      match rest with
      | '.' :: rest => rest.takeWhile Char.isDigit
      | _ => []
    let rest := if fraction.isEmpty then rest else rest.drop (fraction.length + 1)
    let power : Option (Int × List Char) :=
      match rest with
      | e :: rest =>
        if e = 'e' ∨ e = 'E' then
          let (down, rest) :=
            match rest with
            | '-' :: rest => (true, rest)
            | '+' :: rest => (false, rest)
            | _ => (false, rest)
          let ds := rest.takeWhile Char.isDigit
          if ds.isEmpty then none
          else
            let n := (String.ofList ds).toNat?.getD 0
            some (if down then -(n : Int) else n, rest.drop ds.length)
        else none
      | [] => none
    let mantissa := (String.ofList (digits ++ fraction)).toNat?.getD 0
    match fraction, power with
    | [], none =>
      if digits.length ≤ Text.maxDigits then
        .ok (.int (if negative then -(mantissa : Int) else mantissa), rest)
      else .error (.overlong digits.length)
    | _, none => .ok (.float (.ofDecimal negative mantissa (-(fraction.length : Int))), rest)
    | _, some (e, rest) => .ok (.float (.ofDecimal negative mantissa (e - fraction.length)), rest)

/-- A word that stands for a value. -/
def word? (cs : List Char) : Option (Scalar × List Char) :=
  let word (w : String) (s : Scalar) : Option (Scalar × List Char) :=
    if w.toList.isPrefixOf cs then some (s, cs.drop w.length) else none
  word "null" .null <|> word "true" (.bool true) <|> word "false" (.bool false) <|>
    word "NaN" (.float .nan) <|> word "Infinity" (.float (.infinite false)) <|>
    word "-Infinity" (.float (.infinite true))

/-- A word or a number. -/
def bare (cs : List Char) : Except ReadError (Scalar × List Char) :=
  match word? cs with
  | some r => .ok r
  | none => number cs

/-- Quoted text after its opening quote. -/
def quoted (cs : List Char) : Except ReadError (String × List Char) :=
  match quotedText cs with
  | some (s, rest) => .ok (String.ofList s, rest)
  | none => .error .malformed

mutual

/-- A value at the front of a text. -/
def value : Nat → List Char → Except ReadError (Json × List Char)
  | 0, _ => .error .malformed
  | _ + 1, '"' :: rest => (quoted rest).map fun (s, rest) => (.text s, rest)
  | fuel + 1, '[' :: rest =>
    match skipSpace rest with
    | ']' :: rest => .ok (.array [], rest)
    | rest => (items fuel rest).map fun (vs, rest) => (.array vs, rest)
  | fuel + 1, '{' :: rest =>
    match skipSpace rest with
    | '}' :: rest => .ok (.object [], rest)
    | rest => (fields fuel [] rest).map fun (fs, rest) => (.object fs, rest)
  | _ + 1, cs => (bare cs).map fun (s, rest) => (.scalar s, rest)

/-- The items of an array that is not empty, and its closing bracket. -/
def items : Nat → List Char → Except ReadError (List Json × List Char)
  | 0, _ => .error .malformed
  | fuel + 1, cs => do
    let (v, rest) ← value fuel cs
    match skipSpace rest with
    | ']' :: rest => return ([v], rest)
    | ',' :: rest =>
      let (vs, rest) ← items fuel (skipSpace rest)
      return (v :: vs, rest)
    | _ => throw .malformed

/-- The fields of an object that is not empty, and its closing brace, put to the ones before. -/
def fields : Nat → List (String × Json) → List Char →
    Except ReadError (List (String × Json) × List Char)
  | 0, _, _ => .error .malformed
  | fuel + 1, before, cs => do
    let '"' :: rest := cs | throw .malformed
    let (key, rest) ← quoted rest
    let ':' :: rest := skipSpace rest | throw .malformed
    let (v, rest) ← value fuel (skipSpace rest)
    let before := setField key v before
    match skipSpace rest with
    | '}' :: rest => return (before, rest)
    | ',' :: rest => fields fuel before (skipSpace rest)
    | _ => throw .malformed

end

/-- The value that a text spells. -/
def read (source : String) : Except ReadError Json := do
  let cs := source.toList
  let (v, rest) ← value (cs.length + 1) (skipSpace cs)
  if (skipSpace rest).isEmpty then return v else throw .malformed

end TagCall.Json
