import TagCall.Setting.Basic
import TagCall.Yaml.Plain

/-!
What a text says before its words are given values. The key `<<` is none: the mapping under it, or
each mapping of a sequence, is merged into the one it stands in. Where keys agree, own entries win
over merged ones, the last `<<` over those before it, and the first mapping of a sequence over those
behind it.

Values are given to outer collections first. So where several words have none, the first one of the
outermost collection tells why the text has no value.
-/

namespace TagCall.Yaml

open Setting (Failure)

/-- A scalar as it is written. -/
inductive Word where
  | plain (chars : List Char)
  | quoted (text : String)

inductive Draft where
  | word (w : Word)
  | sequence (items : List Draft)
  /-- The entries, merged ones in front, and whether all that is under `<<` can be merged. -/
  | mapping (merges : Bool) (entries : List (Except Failure Scalar × Draft))

inductive Key where
  | scalar (value : Except Failure Scalar)
  | merge

def Word.value : Word → Except Failure Scalar
  | plain chars => plainValue chars
  | quoted text => .ok (.text text)

def Word.isPlain : Word → Bool
  | plain _ => true
  | quoted _ => false

/-- The key that a word is. An equals sign, which is no value, is a key. -/
def Word.key : Word → Key
  | plain ['<', '<'] => .merge
  | plain ['='] => .scalar (.ok (.text "="))
  | w => .scalar w.value

namespace Draft

/-- The draft of nothing. -/
def empty : Draft := word (.plain [])

/-- The key that a draft is. Only words can be keys. -/
def key : Draft → Key
  | word w => w.key
  | _ => .scalar (.error .unreadable)

/-- The entries that merging a draft adds, and whether it can be merged. -/
def merged : Draft → Bool × List (Except Failure Scalar × Draft)
  | mapping merges entries => (merges, entries)
  | sequence items =>
    let parts := items.map fun
      | mapping merges entries => (merges, entries)
      | _ => (false, [])
    (parts.all (·.1), (parts.reverse.map (·.2)).flatten)
  | word _ => (false, [])

/-- The mapping of entries in the order of the text. -/
def ofEntries (entries : List (Key × Draft)) : Draft :=
  let added := entries.map fun
    | (.merge, d) => d.merged
    | (.scalar _, _) => (true, [])
  let own := entries.filterMap fun
    | (.scalar key, d) => some (key, d)
    | (.merge, _) => none
  mapping (added.all (·.1)) ((added.map (·.2)).flatten ++ own)

mutual

/-- The value of a draft, if every word in it has one. -/
def value? : Draft → Option Setting
  | word w => w.value.toOption.map Setting.scalar
  | sequence items => (itemValues? items).map Setting.sequence
  | mapping merges entries => do
    let entries ← entryValues? entries
    if merges then
      return .mapping (entries.foldl (fun es (key, v) => Setting.setEntry key v es) [])
    else none

def itemValues? : List Draft → Option (List Setting)
  | [] => some []
  | d :: rest => do return (← d.value?) :: (← itemValues? rest)

def entryValues? : List (Except Failure Scalar × Draft) → Option (List (Scalar × Setting))
  | [] => some []
  | (key, d) :: rest => do return (← key.toOption, ← d.value?) :: (← entryValues? rest)

end

/-- The faults of two parts of a collection, level by level. -/
def joinLevels : List (List Failure) → List (List Failure) → List (List Failure)
  | [], ys => ys
  | xs, [] => xs
  | x :: xs, y :: ys => (x ++ y) :: joinLevels xs ys

def faults : Except Failure Scalar → List Failure
  | .ok _ => []
  | .error e => [e]

def isWord : Draft → Bool
  | word _ => true
  | _ => false

mutual

/-- The faults in a draft by their level. Those of the words in a collection come before those of
the collections in it. -/
def levels : Draft → List (List Failure)
  | word w => [faults w.value]
  | sequence items => itemLevels items
  | mapping merges entries => if merges then entryLevels entries else [[.unreadable]]

def itemLevels : List Draft → List (List Failure)
  | [] => []
  | d :: rest => joinLevels (if d.isWord then d.levels else [] :: d.levels) (itemLevels rest)

def entryLevels : List (Except Failure Scalar × Draft) → List (List Failure)
  | [] => []
  | (key, d) :: rest =>
    joinLevels [faults key]
      (joinLevels (if d.isWord then d.levels else [] :: d.levels) (entryLevels rest))

end

/-- The value of a draft, or the first fault in it. -/
def read (d : Draft) : Except Failure Setting :=
  match d.value? with
  | some v => .ok v
  | none => .error (d.levels.flatten.head?.getD .unreadable)

end Draft

end TagCall.Yaml
