import TagCall.Json.Basic

/-!
Writing JSON: on one line without spaces and with all characters kept, or indented by two spaces
and in ASCII. There are no times in JSON.
-/

namespace TagCall.Json

/-- The short escape of a character that has one. -/
def shortEscape? (c : Char) : Option Char :=
  if c = '"' then some '"'
  else if c = '\\' then some '\\'
  else if c = '\n' then some 'n'
  else if c = '\r' then some 'r'
  else if c = '\t' then some 't'
  else if c = '\x08' then some 'b'
  else if c = '\x0c' then some 'f'
  else none

def escapeChar (c : Char) : List Char :=
  match shortEscape? c with
  | some e => ['\\', e]
  | none => if c.toNat < 0x20 then '\\' :: 'u' :: Text.hex 4 c.toNat else [c]

/-- As `escapeChar`, but from U+007F on every UTF-16 code unit is escaped as well. -/
def escapeAscii (c : Char) : List Char :=
  let n := c.toNat
  if n < 0x7F then escapeChar c
  else if n < 0x10000 then '\\' :: 'u' :: Text.hex 4 n
  else
    let n := n - 0x10000
    '\\' :: 'u' :: Text.hex 4 (0xD800 + n / 0x400) ++
      '\\' :: 'u' :: Text.hex 4 (0xDC00 + n % 0x400)

def quote (escape : Char → List Char) (s : String) : List Char :=
  '"' :: (s.toList.flatMap escape ++ ['"'])

/-- A scalar. A time, which has no form of its own, is put as text. -/
def scalarChars (escape : Char → List Char) : Scalar → List Char
  | .null => ['n', 'u', 'l', 'l']
  | .bool true => ['t', 'r', 'u', 'e']
  | .bool false => ['f', 'a', 'l', 's', 'e']
  | .int n => (toString n).toList
  | .float (.infinite negative) => Binary64.sign negative ++ "Infinity".toList
  | .float .nan => ['N', 'a', 'N']
  | .float x => x.toChars
  | .time t => quote escape t.toText
  | .text s => quote escape s

mutual

def compactChars : Json → List Char
  | scalar s => scalarChars escapeChar s
  | array items => '[' :: compactItems items
  | object fields => '{' :: compactFields fields

/-- The items of an array and its closing bracket. -/
def compactItems : List Json → List Char
  | [] => [']']
  | [v] => compactChars v ++ [']']
  | v :: rest => compactChars v ++ ',' :: compactItems rest

/-- The fields of an object and its closing brace. -/
def compactFields : List (String × Json) → List Char
  | [] => ['}']
  | [(k, v)] => quote escapeChar k ++ ':' :: (compactChars v ++ ['}'])
  | (k, v) :: rest => quote escapeChar k ++ ':' :: (compactChars v ++ ',' :: compactFields rest)

end

/-- A value on one line. -/
def compact (v : Json) : String :=
  String.ofList v.compactChars

private def newline (depth : Nat) : List Char :=
  '\n' :: List.replicate (2 * depth) ' '

mutual

def indentedChars (depth : Nat) : Json → List Char
  | scalar s => scalarChars escapeAscii s
  | array [] => ['[', ']']
  | array items => '[' :: indentedItems depth items
  | object [] => ['{', '}']
  | object fields => '{' :: indentedFields depth fields

def indentedItems (depth : Nat) : List Json → List Char
  | [] => newline depth ++ [']']
  | [v] => newline (depth + 1) ++ indentedChars (depth + 1) v ++ newline depth ++ [']']
  | v :: rest =>
    newline (depth + 1) ++ indentedChars (depth + 1) v ++ ',' :: indentedItems depth rest

def indentedFields (depth : Nat) : List (String × Json) → List Char
  | [] => newline depth ++ ['}']
  | [(k, v)] =>
    newline (depth + 1) ++ quote escapeAscii k ++ ':' :: ' ' :: indentedChars (depth + 1) v ++
      newline depth ++ ['}']
  | (k, v) :: rest =>
    newline (depth + 1) ++ quote escapeAscii k ++ ':' :: ' ' :: indentedChars (depth + 1) v ++
      ',' :: indentedFields depth rest

end

/-- Why a value can not be written. -/
inductive WriteError where
  | time
  | overlong (e : Overlong)
  deriving DecidableEq, Repr

def WriteError.message : WriteError → String
  | time => "a time has no written form"
  | overlong e => e.message

def scalarFault? : Scalar → Option WriteError
  | .time _ => some .time
  | s => if s.isWritable then none else some (.overlong ⟨⟩)

mutual

/-- What first stands in the way of writing a value. -/
def fault? : Json → Option WriteError
  | scalar s => scalarFault? s
  | array items => itemsFault? items
  | object fields => fieldsFault? fields

def itemsFault? : List Json → Option WriteError
  | [] => none
  | v :: rest => (fault? v).or (itemsFault? rest)

def fieldsFault? : List (String × Json) → Option WriteError
  | [] => none
  | (_, v) :: rest => (fault? v).or (fieldsFault? rest)

end

/-- A value with one item or field a line, in ASCII. -/
def indented (v : Json) : Except WriteError String :=
  match v.fault? with
  | some e => .error e
  | none => .ok (String.ofList (v.indentedChars 0))

end TagCall.Json
