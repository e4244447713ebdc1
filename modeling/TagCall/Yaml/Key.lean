import TagCall.Yaml.Draft
import TagCall.Yaml.Quoted

/-!
Words as they are read, and the search for the colon of a key. Whether something is a key shows only
at a colon behind it. So wherever a key can stand, all tokens are read up to where its colon would
have to be, and a fault in one of them comes before any fault in the order of the tokens.
-/

namespace TagCall.Yaml

/-- What reading gives. With what is read from a place comes the place after it. -/
abbrev Reading := Except Fault

def unreadable {α : Type} : Reading α := .error .unreadable

/-- What must be there. -/
def expected {α : Type} : Option α → Reading α
  | some a => .ok a
  | none => unreadable

/-- The longest key there may be, with the spaces before its colon. -/
def maxKey : Nat := 1024

/-- The place after a colon that makes a key of what was read from `start` to `c`: key and colon
must be on one line. -/
def afterColon? (flow : Bool) (start c : Cursor) : Option Cursor :=
  let c := c.skipSpaces
  match c.rest with
  | ':' :: rest =>
    if start.line = c.line ∧ c.column ≤ start.column + maxKey ∧ (flow ∨ endsWord rest) then
      some (c.move 1)
    else none
  | _ => none

def quotedWord (double : Bool) (c : Cursor) : Reading (Word × Cursor) :=
  (quoted double c).map fun (s, c) => (.quoted (String.ofList s), c)

/-- A scalar. -/
def word (flow : Bool) (floor : Nat) (c : Cursor) : Reading (Word × Cursor) :=
  match c.rest with
  | '"' :: _ => quotedWord true (c.move 1)
  | '\'' :: _ => quotedWord false (c.move 1)
  | rest =>
    if startsPlain flow rest then
      let (chars, c) := plain flow floor c
      .ok (.plain chars, c)
    else unreadable

/-- The fault of a text with a token where it can not stand: one in the token comes first. -/
def unexpected {α : Type} (c : Cursor) : Reading α :=
  match c.rest with
  | '"' :: _ => quotedWord true (c.move 1) >>= fun _ => unreadable
  | _ => unreadable

/-- Whether a flow value is opened here. -/
def opensFlow (c : Cursor) : Bool :=
  c.rest.head? = some '[' || c.rest.head? = some '{'

/-- Whether a flow value is closed here. -/
def closesFlow (c : Cursor) : Bool :=
  c.rest.head? = some ']' || c.rest.head? = some '}'

/-- Whether an entry of a flow value is marked off here, or its value. -/
def marksFlow (c : Cursor) : Bool :=
  match c.rest with
  | ',' :: _ | '?' :: _ | ':' :: _ => true
  | _ => c.atItem

/-- Whether nothing but spaces follow on the line. -/
def atLineEnd (c : Cursor) : Bool :=
  match c.skipSpaces.rest with
  | [] => true
  | b :: _ => isBreak b

/-- Where a key can stand. -/
structure KeyPlace where
  flow : Bool
  /-- The least indentation of words that go on. -/
  floor : Nat
  start : Cursor
  /-- Whether a key must stand there. -/
  isDue : Bool := false

/-- Whether the colon of a key could be here. -/
def KeyPlace.reaches (p : KeyPlace) (c : Cursor) : Bool :=
  p.start.line = c.line && c.column ≤ p.start.column + maxKey

/-- Reads tokens on from a place up to where the colon of a key would have to be; `depth` brackets
are open that were not at the start of the key. The first token that is out of reach is read as
well, but where a key must stand it is a fault. -/
def searchFrom (p : KeyPlace) : Nat → Nat → Cursor → Reading Unit
  | 0, _, _ => .ok ()
  | fuel + 1, depth, c => do
    let next := c.skip
    let flow := p.flow || 0 < depth
    if p.isDue && !p.reaches next then unreadable
    else if !p.reaches c || next.atEnd then return
    else if opensFlow next then searchFrom p fuel (depth + 1) (next.move 1)
    else if closesFlow next then
      if 0 < depth then searchFrom p fuel (depth - 1) (next.move 1)
    else if flow && marksFlow next then
      if 0 < depth then searchFrom p fuel depth (next.move 1)
    else if next.rest.head? = some '"' || next.rest.head? = some '\'' then
      let (_, c) ← word flow p.floor next
      if p.reaches next then searchFrom p fuel depth c
    else if startsPlain flow next.rest && p.reaches next then
      let c := (plain flow p.floor next).2.skipSpaces
      if !atLineEnd c then searchFrom p fuel depth c
      else if p.isDue then unreadable

/-- Reads the tokens up to where the colon of a key would have to be. -/
def KeyPlace.search (p : KeyPlace) : Reading Unit :=
  searchFrom p (maxKey + 2) 0 p.start

/-- The fault of a text in which no token can stand any more. A token on a new line could still be a
key, if none is open. -/
def unexpectedAfter {α : Type} (flow isDue : Bool) (c : Cursor) : Reading α := do
  let next := c.skip
  if next.line ≠ c.line then KeyPlace.search ⟨flow, 0, next, isDue⟩
  unexpected next

/-- A scalar inside brackets. A plain one goes on from line to line, so where it ends with its line
nothing but a mark can follow. -/
def flowWord (c : Cursor) : Reading (Word × Cursor) := do
  let (w, after) ← word true 0 c
  let next := after.skip
  if w.isPlain && atLineEnd after && !(next.atEnd || closesFlow next || marksFlow next) then
    unexpectedAfter true false after
  else return (w, after)

end TagCall.Yaml
