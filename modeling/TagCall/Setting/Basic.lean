import TagCall.Json.Basic

/-!
The values that a settings file or a caller can give: scalars, sequences and mappings by scalar
keys.
-/

namespace TagCall

inductive Setting where
  | scalar (s : Scalar)
  | sequence (items : List Setting)
  | mapping (entries : List (Scalar × Setting))
  deriving Repr

namespace Setting

/-- Why a file gives no value. -/
inductive Failure where
  /-- The file is no text, the text is not well formed, or a word in it has no value. -/
  | unreadable
  /-- A number in the text is too large to be worked with. -/
  | outOfRange
  deriving DecidableEq, Repr

/-- How a file is read as a value. -/
abbrev Reader := ByteArray → Except Failure Setting

@[match_pattern] abbrev null : Setting := .scalar .null

@[match_pattern] abbrev bool (b : Bool) : Setting := .scalar (.bool b)

@[match_pattern] abbrev text (s : String) : Setting := .scalar (.text s)

mutual

def ofJson : Json → Setting
  | .scalar s => scalar s
  | .array items => sequence (ofItems items)
  | .object fields => mapping (ofFields fields)

def ofItems : List Json → List Setting
  | [] => []
  | v :: rest => ofJson v :: ofItems rest

def ofFields : List (String × Json) → List (Scalar × Setting)
  | [] => []
  | (k, v) :: rest => (.text k, ofJson v) :: ofFields rest

end

mutual

/-- A value as messages show it. -/
def describe : Setting → String
  | scalar s => s.describe
  | sequence items => "[" ++ ", ".intercalate (describeItems items) ++ "]"
  | mapping entries => "\x7b" ++ ", ".intercalate (describeEntries entries) ++ "\x7d"

def describeItems : List Setting → List String
  | [] => []
  | v :: rest => v.describe :: describeItems rest

def describeEntries : List (Scalar × Setting) → List String
  | [] => []
  | (k, v) :: rest => (k.describe ++ ": " ++ v.describe) :: describeEntries rest

end

mutual

/-- Whether all that is in a value can be written. -/
def isWritable : Setting → Bool
  | scalar s => s.isWritable
  | sequence items => areWritable items
  | mapping entries => entriesWritable entries

def areWritable : List Setting → Bool
  | [] => true
  | v :: rest => v.isWritable && areWritable rest

def entriesWritable : List (Scalar × Setting) → Bool
  | [] => true
  | (k, v) :: rest => k.isWritable && v.isWritable && entriesWritable rest

end

/-- A value as plain text; text stands for itself. -/
def toText : Setting → String
  | scalar s => s.toText
  | v => v.describe

/-- The plain text of a value that can be written. -/
def plain (v : Setting) : Except Overlong String :=
  if v.isWritable then .ok v.toText else .error ⟨⟩

def isTruthy : Setting → Bool
  | scalar s => s.isTruthy
  | sequence items => !items.isEmpty
  | mapping entries => !entries.isEmpty

/-- Puts an entry into a mapping: in place if the key is there, else at the end. -/
def setEntry (key : Scalar) (value : Setting) : List (Scalar × Setting) → List (Scalar × Setting)
  | [] => [(key, value)]
  | (k, v) :: rest =>
    if k.same key then (k, value) :: rest else (k, v) :: setEntry key value rest

/-- The value of a text key. -/
def entry? (key : String) (entries : List (Scalar × Setting)) : Option Setting :=
  (entries.find? (·.1 = .text key)).map (·.2)

end Setting

end TagCall
