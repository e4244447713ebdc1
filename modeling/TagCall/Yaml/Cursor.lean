/-!
Places in a YAML text, and moving on between its tokens. A line starts at column 0.
-/

namespace TagCall.Yaml

/-- The characters that end a line. -/
def isBreak (c : Char) : Bool :=
  c = '\n' || c = '\r' || c = '\x85' || c = '\u2028' || c = '\u2029'

/-- Line ends are newlines, but for the two separators of Unicode. -/
def lineEnd (c : Char) : Char :=
  if c = '\u2028' ∨ c = '\u2029' then c else '\n'

/-- The characters that no plain word holds. -/
def isGap (c : Char) : Bool :=
  c = ' ' || c = '\t' || isBreak c

/-- Whether a token is over here: at a gap or at the end. -/
def endsWord : List Char → Bool
  | [] => true
  | c :: _ => isGap c

/-- The characters that a text may hold. -/
def isAllowed (c : Char) : Bool :=
  let n := c.toNat
  n = 0x9 || n = 0xA || n = 0xD || (0x20 ≤ n && n ≤ 0x7E) || n = 0x85 || (0xA0 ≤ n && n ≤ 0xD7FF) ||
    (0xE000 ≤ n && n ≤ 0xFFFD) || 0x10000 ≤ n

structure Cursor where
  rest : List Char
  line : Nat := 0
  column : Nat := 0

/-- Whether a line starts with three hyphens or three points that stand alone. -/
def isMarker : List Char → Bool
  | '-' :: '-' :: '-' :: rest => endsWord rest
  | '.' :: '.' :: '.' :: rest => endsWord rest
  | _ => false

/-- Goes on to the next token, past spaces, comments and line ends. Tabs are not passed. -/
def skipFrom (inComment : Bool) (line column : Nat) : List Char → Cursor
  | [] => ⟨[], line, column⟩
  | c :: rest =>
    if isBreak c then skipFrom false (line + 1) 0 rest
    else if inComment || c = ' ' then skipFrom inComment line (column + 1) rest
    else if c = '#' then skipFrom true line (column + 1) rest
    else ⟨c :: rest, line, column⟩

namespace Cursor

def skip (c : Cursor) : Cursor :=
  skipFrom false c.line c.column c.rest

/-- Moves on by characters that end no line. -/
def move (c : Cursor) (count : Nat) : Cursor :=
  ⟨c.rest.drop count, c.line, c.column + count⟩

/-- Moves past spaces. -/
def skipSpaces (c : Cursor) : Cursor :=
  c.move (c.rest.takeWhile (· = ' ')).length

def atMarker (c : Cursor) : Bool :=
  c.column = 0 && isMarker c.rest

/-- Whether a line starts here with a percent sign, which is one for a directive. -/
def atDirective (c : Cursor) : Bool :=
  c.column = 0 && c.rest.head? = some '%'

/-- Whether no more tokens of a document follow. -/
def atEnd (c : Cursor) : Bool :=
  c.rest.isEmpty || c.atMarker || c.atDirective

/-- Whether a character stands here alone. -/
def atMark (c : Cursor) (mark : Char) : Bool :=
  match c.rest with
  | m :: rest => m = mark && endsWord rest
  | [] => false

/-- Whether a hyphen stands here that starts an item. -/
def atItem (c : Cursor) : Bool :=
  c.atMark '-'

/-- Whether a question mark stands here that starts a key. -/
def atKey (c : Cursor) : Bool :=
  c.atMark '?'

end Cursor

/-- The empty lines after the end of a line, without their spaces. Fails where a marker follows. -/
def emptyLines (line column : Nat) : List Char → Option (List Char × Cursor)
  | [] => some ([], ⟨[], line, column⟩)
  | c :: rest =>
    if column = 0 && isMarker (c :: rest) then none
    else if c = ' ' then emptyLines line (column + 1) rest
    else if isBreak c then
      (emptyLines (line + 1) 0 rest).map fun (more, c') => (lineEnd c :: more, c')
    else some ([], ⟨c :: rest, line, column⟩)

/-- As `emptyLines`, but tabs are dropped as well. -/
def emptyTabbedLines (line column : Nat) : List Char → Option (List Char × Cursor)
  | [] => some ([], ⟨[], line, column⟩)
  | c :: rest =>
    if column = 0 && isMarker (c :: rest) then none
    else if c = ' ' || c = '\t' then emptyTabbedLines line (column + 1) rest
    else if isBreak c then
      (emptyTabbedLines (line + 1) 0 rest).map fun (more, c') => (lineEnd c :: more, c')
    else some ([], ⟨c :: rest, line, column⟩)

/-- What a line end and the empty lines after it stand for inside a value: one space for a newline
alone, and else the line ends of the empty lines. -/
def folded (first : Char) (empty : List Char) : List Char :=
  if lineEnd first ≠ '\n' then lineEnd first :: empty
  else if empty.isEmpty then [' ']
  else empty

end TagCall.Yaml
