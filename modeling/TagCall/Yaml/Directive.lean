import TagCall.Text.Digit
import TagCall.Yaml.Cursor
import TagCall.Yaml.Number

/-!
Directives: lines in front of a document that start with a percent sign. One tells the version, and
others each the meaning of a handle for tags. They must be well formed and may not be repeated;
directives of other names say nothing.
-/

namespace TagCall.Yaml

inductive Directive where
  | version
  | handle (name : List Char)
  | other
  deriving DecidableEq, Repr

namespace Directive

/-- The characters of names. -/
def isNameChar (c : Char) : Bool :=
  c.isAlphanum || c = '-' || c = '_'

/-- The characters of what a handle stands for. -/
def isUriChar (c : Char) : Bool :=
  c.isAlphanum || "-;/?:@&=+$,_.!~*'()[]%".toList.contains c

/-- Whether a part of a directive is over here: at a space, or at the end of the line or text. -/
def endsPart : List Char → Bool
  | [] => true
  | c :: _ => c = ' ' || isBreak c

private def dropSpaces (cs : List Char) : List Char :=
  cs.dropWhile (· = ' ')

/-- A whole number and what follows it. -/
def number? (cs : List Char) : Option (Nat × List Char) := do
  let ds := cs.takeWhile Char.isDigit
  return (← valueOf 10 (← digitsOf 10 ds), cs.drop ds.length)

/-- What follows the number of a version, which must be the first major one. -/
def afterVersion? (cs : List Char) : Option (List Char) := do
  let (major, cs) ← number? cs
  match cs with
  | '.' :: cs =>
    let (_, cs) ← number? cs
    if major = 1 then return cs else none
  | _ => none

/-- A handle and what follows it: a lone exclamation mark, or two with a name between them. -/
def handle? : List Char → Option (List Char × List Char)
  | '!' :: rest =>
    if rest.head? = some ' ' then some ([], rest)
    else
      match rest.dropWhile isNameChar with
      | '!' :: after => some ('!' :: rest.takeWhile isNameChar, after)
      | _ => none
  | _ => none

/-- Whether each run of escaped bytes is UTF-8. An escape has a percent sign and two digits. The
bytes in front of a text are given. -/
def hasGoodEscapes (bytes : List UInt8) : List Char → Bool
  | [] => (String.fromUTF8? ⟨bytes.toArray⟩).isSome
  | '%' :: a :: b :: rest =>
    match Text.hexDigit? a, Text.hexDigit? b with
    | some x, some y => hasGoodEscapes (bytes ++ [UInt8.ofNat (16 * x + y)]) rest
    | _, _ => false
  | c :: rest =>
    c ≠ '%' && (String.fromUTF8? ⟨bytes.toArray⟩).isSome && hasGoodEscapes [] rest

/-- What follows the text that a handle stands for. -/
def afterUri? (cs : List Char) : Option (List Char) :=
  let uri := cs.takeWhile isUriChar
  if !uri.isEmpty && hasGoodEscapes [] uri then some (cs.drop uri.length) else none

/-- What follows the last part of a directive, up to the end of the line: at most a comment. -/
def atLineEnd? (cs : List Char) : Option (List Char) :=
  match dropSpaces cs with
  | [] => some []
  | c :: rest =>
    if c = '#' then some (rest.dropWhile (!isBreak ·))
    else if isBreak c then some (c :: rest)
    else none

/-- A directive behind its percent sign, and what follows it from the end of its line on. -/
def read? (cs : List Char) : Option (Directive × List Char) := do
  let name := cs.takeWhile isNameChar
  let cs := cs.drop name.length
  if name.isEmpty || !endsPart cs then none
  else if String.ofList name = "YAML" then
    let cs ← afterVersion? (dropSpaces cs)
    if endsPart cs then return (.version, ← atLineEnd? cs) else none
  else if String.ofList name = "TAG" then
    let (name, cs) ← handle? (dropSpaces cs)
    let rest := dropSpaces cs
    let after ← afterUri? rest
    if rest.length < cs.length && endsPart after then return (.handle name, ← atLineEnd? after)
    else none
  else return (.other, cs.dropWhile (!isBreak ·))

end Directive

/-- The directives from here on, of which none may be repeated, and the start of the line after
them. -/
def directives : Nat → List Directive → Cursor → Option (List Directive × Cursor)
  | 0, _, _ => none
  | fuel + 1, before, c =>
    let next := c.skip
    match next.rest with
    | '%' :: rest =>
      if next.column = 0 then do
        let (d, rest) ← Directive.read? rest
        if d ≠ .other ∧ d ∈ before then none
        else directives fuel (before ++ [d]) ⟨rest.drop 1, next.line + 1, 0⟩
      else some (before, c)
    | _ => some (before, c)

end TagCall.Yaml
