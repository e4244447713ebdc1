import TagCall.Text.Pieces
import TagCall.Yaml.Directive
import TagCall.Yaml.Key

/-!
Reading a YAML text of one document: block mappings and sequences, which are laid out by columns,
flow mappings and sequences in brackets, and scalars. A key stands before a colon, or behind a
question mark. Anchors, aliases, tags and block scalars are not read.
-/

namespace TagCall.Yaml

/-- Whether the part of a flow value that could stand here is left out. -/
def isLeftOut (c : Cursor) : Bool :=
  match c.rest with
  | ',' :: _ | ']' :: _ | '}' :: _ => true
  | _ => false

mutual

/-- A scalar inside brackets, or brackets. -/
def flowNode : Nat → Cursor → Reading (Draft × Cursor)
  | 0, _ => unreadable
  | fuel + 1, c =>
    if c.atEnd then unreadable
    else if opensFlow c then flowBrackets fuel c
    else (flowWord c).map fun (w, c) => (.word w, c)

/-- Brackets with what is in them. -/
def flowBrackets : Nat → Cursor → Reading (Draft × Cursor)
  | 0, _ => unreadable
  | fuel + 1, c =>
    if c.rest.head? = some '[' then
      (flowItems fuel (c.move 1)).map fun (items, c) => (.sequence items, c)
    else (flowEntries fuel (c.move 1)).map fun (entries, c) => (.ofEntries entries, c)

/-- The value after a colon inside brackets; nothing stands for null. -/
def flowValue : Nat → Cursor → Reading (Draft × Cursor)
  | 0, _ => unreadable
  | fuel + 1, c =>
    let next := c.skip
    if !next.atEnd && isLeftOut next then .ok (.empty, c) else flowNode fuel next

/-- A key inside brackets behind its question mark; nothing stands for null. -/
def flowKey : Nat → Cursor → Reading (Key × Cursor)
  | 0, _ => unreadable
  | fuel + 1, c =>
    let next := c.skip
    if !next.atEnd && (isLeftOut next || next.rest.head? = some ':') then
      .ok (Draft.empty.key, next)
    else (flowNode fuel next).map fun (d, c) => (d.key, c)

/-- An entry inside brackets from its question mark. The value may be left out with its colon. -/
def flowExplicit : Nat → Cursor → Reading ((Key × Draft) × Cursor)
  | 0, _ => unreadable
  | fuel + 1, c => do
    let (key, c) ← flowKey fuel (c.move 1)
    let next := c.skip
    if next.rest.head? = some ':' then
      let (v, c) ← flowValue fuel (next.move 1)
      return ((key, v), c)
    else return ((key, .empty), c)

/-- An item. A key with its value is one, a mapping of its own. -/
def flowItem : Nat → Cursor → Reading (Draft × Cursor)
  | 0, _ => unreadable
  | fuel + 1, c => do
    if c.rest.head? = some '?' then
      let (entry, c) ← flowExplicit fuel c
      return (.ofEntries [entry], c)
    else
      KeyPlace.search ⟨true, 0, c, false⟩
      let (d, after) ← flowNode fuel c
      match afterColon? true c after with
      | some next =>
        let (v, after) ← flowValue fuel next
        return (.ofEntries [(d.key, v)], after)
      | none => return (d, after)

/-- Items up to the closing bracket. -/
def flowItems : Nat → Cursor → Reading (List Draft × Cursor)
  | 0, _ => unreadable
  | fuel + 1, c => do
    let start := c.skip
    if start.atEnd then unreadable
    else if start.rest.head? = some ']' then return ([], start.move 1)
    else
      let (d, c) ← flowItem fuel start
      let next := c.skip
      if next.atEnd then unreadable
      else
        match next.rest with
        | ',' :: _ =>
          let (more, c) ← flowItems fuel (next.move 1)
          return (d :: more, c)
        | ']' :: _ => return ([d], next.move 1)
        | _ => unexpected next

/-- An entry inside braces. A key alone has the value null. -/
def flowEntry : Nat → Cursor → Reading ((Key × Draft) × Cursor)
  | 0, _ => unreadable
  | fuel + 1, c => do
    if c.rest.head? = some '?' then flowExplicit fuel c
    else
      KeyPlace.search ⟨true, 0, c, false⟩
      let (d, after) ← flowNode fuel c
      match afterColon? true c after with
      | some next =>
        let (v, after) ← flowValue fuel next
        return ((d.key, v), after)
      | none => return ((d.key, .empty), after)

/-- Entries up to the closing brace. -/
def flowEntries : Nat → Cursor → Reading (List (Key × Draft) × Cursor)
  | 0, _ => unreadable
  | fuel + 1, c => do
    let start := c.skip
    if start.atEnd then unreadable
    else if start.rest.head? = some '}' then return ([], start.move 1)
    else
      let (entry, c) ← flowEntry fuel start
      let next := c.skip
      if next.atEnd then unreadable
      else
        match next.rest with
        | ',' :: _ =>
          let (more, c) ← flowEntries fuel (next.move 1)
          return (entry :: more, c)
        | '}' :: _ => return ([entry], next.move 1)
        | _ => unexpected next

end

/-- A scalar outside brackets, or brackets. -/
def blockLeaf (fuel floor : Nat) (c : Cursor) : Reading (Draft × Cursor) :=
  if opensFlow c then flowNode fuel c
  else (word false floor c).map fun (w, c) => (.word w, c)

mutual

/-- A value outside brackets. It may be a block mapping or sequence, which then is laid out from
this column, only where `isOpen` holds. -/
def blockNode : Nat → Nat → Bool → Cursor → Reading (Draft × Cursor)
  | 0, _, _, _ => unreadable
  | fuel + 1, floor, isOpen, c =>
    if c.atItem then
      if isOpen then do
        let (items, after) ← blockItems fuel c.column c
        let next := after.skip
        if !next.atEnd && next.line ≠ after.line && next.column = c.column then
          unexpectedAfter false true after
        else return (.sequence items, after)
      else unreadable
    else if c.atKey then
      if isOpen then do
        let (entry, after) ← blockExplicit fuel c.column c
        let (entries, after) ← blockEntries fuel c.column after
        return (.ofEntries (entry :: entries), after)
      else unreadable
    else do
      if isOpen then KeyPlace.search ⟨false, floor, c, false⟩
      let (d, after) ← blockLeaf fuel floor c
      match isOpen, afterColon? false c after with
      | true, some next =>
        let (v, after) ← blockValue fuel c.column false next
        let (entries, after) ← blockEntries fuel c.column after
        return (.ofEntries ((d.key, v) :: entries), after)
      | _, _ => return (d, after)

/-- What stands behind the mark of a key or value of an entry at a column; nothing stands for null.
On the line of the mark it may be laid out from its own column only where `isOpen` holds. -/
def blockValue : Nat → Nat → Bool → Cursor → Reading (Draft × Cursor)
  | 0, _, _, _ => unreadable
  | fuel + 1, column, isOpen, c =>
    let next := c.skip
    if next.atEnd then .ok (.empty, c)
    else if next.line = c.line then blockNode fuel (column + 1) isOpen next
    else if column < next.column then blockNode fuel (column + 1) true next
    else if column = next.column ∧ next.atItem then
      (blockItems fuel column next).map fun (items, c) => (.sequence items, c)
    else .ok (.empty, c)

/-- An entry of a mapping at a column from its question mark. The value may be left out with its
colon, which else stands under the question mark. -/
def blockExplicit : Nat → Nat → Cursor → Reading ((Key × Draft) × Cursor)
  | 0, _, _ => unreadable
  | fuel + 1, column, c => do
    let (d, after) ← blockValue fuel column true (c.move 1)
    let next := after.skip
    if !next.atEnd && next.line ≠ after.line && next.column = column && next.atMark ':' then
      let (v, after) ← blockValue fuel column true (next.move 1)
      return ((d.key, v), after)
    else return ((d.key, .empty), after)

/-- An entry of a mapping at a column, with a key before a colon or behind a question mark. -/
def blockEntry : Nat → Nat → Cursor → Reading ((Key × Draft) × Cursor)
  | 0, _, _ => unreadable
  | fuel + 1, column, c => do
    if c.atKey then blockExplicit fuel column c
    else
      KeyPlace.search ⟨false, column + 1, c, true⟩
      let (d, after) ← blockLeaf fuel (column + 1) c
      let next ← expected (afterColon? false c after)
      let (v, after) ← blockValue fuel column false next
      return ((d.key, v), after)

/-- More entries of a mapping at a column. -/
def blockEntries : Nat → Nat → Cursor → Reading (List (Key × Draft) × Cursor)
  | 0, _, _ => unreadable
  | fuel + 1, column, c => do
    let start := c.skip
    if start.atEnd ∨ start.line = c.line ∨ start.column ≠ column then return ([], c)
    else
      let (entry, after) ← blockEntry fuel column start
      let (more, c) ← blockEntries fuel column after
      return (entry :: more, c)

/-- The items of a sequence at a column, from the hyphen of the first. -/
def blockItems : Nat → Nat → Cursor → Reading (List Draft × Cursor)
  | 0, _, _ => unreadable
  | fuel + 1, column, c => do
    let c := c.move 1
    let next := c.skip
    let (d, c) ←
      if next.atEnd then pure (Draft.empty, c)
      else if next.line = c.line ∨ column < next.column then blockNode fuel (column + 1) true next
      else pure (Draft.empty, c)
    let start := c.skip
    if start.atEnd ∨ start.line = c.line ∨ start.column ≠ column ∨ !start.atItem then
      return ([d], c)
    else
      let (more, c) ← blockItems fuel column start
      return (d :: more, c)

end

/-- Checks that nothing but marks of the document's end follow. -/
def atEnd : Nat → Cursor → Reading Unit
  | 0, _ => unreadable
  | fuel + 1, c =>
    let next := c.skip
    if next.rest.isEmpty then .ok ()
    else if next.atMarker && next.rest.head? = some '.' then atEnd fuel (next.move 3)
    else do
      let (_, c) ← expected (directives fuel [] c)
      unexpectedAfter false false c

/-- The content of a document after its opening marker. -/
def markedContent (fuel : Nat) (c : Cursor) : Reading (Draft × Cursor) :=
  let next := c.skip
  if next.atEnd then .ok (.empty, c) else blockNode fuel 0 (next.line ≠ c.line) next

/-- The draft of the one document in a text. The empty text stands for null. Behind directives the
document must have an opening marker. -/
def draft (text : List Char) : Reading Draft := do
  let fuel := 8 * text.length + 8
  let cs := if text.head? = some Text.byteOrderMark then text.drop 1 else text
  let (before, c) ← expected (directives fuel [] ⟨cs, 0, 0⟩)
  let start := c.skip
  let (d, c) ←
    if start.atMarker && start.rest.head? = some '-' then markedContent fuel (start.move 3)
    else if start.atMarker || !before.isEmpty then unexpectedAfter false false c
    else if start.rest.isEmpty then pure (Draft.empty, start)
    else blockNode fuel 0 true start
  atEnd fuel c
  return d

/-- The value of the one document in a file. A file that can not be read for a number that is out of
range may have other faults behind, which count as far as the file has been seen. -/
def read : Setting.Reader := fun bytes =>
  let (text, isWhole) := Text.utf8Start bytes
  match draft text with
  | .ok d => if isWhole && text.all isAllowed then d.read else .error .unreadable
  | .error (.outOfRange next) =>
    match Text.seen? bytes (text.length - next.rest.length) with
    | some seen => .error (if seen.all isAllowed then .outOfRange else .unreadable)
    | none => .error .unreadable
  | .error .unreadable => .error .unreadable

end TagCall.Yaml
