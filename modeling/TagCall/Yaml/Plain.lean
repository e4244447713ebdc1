import TagCall.Setting.Basic
import TagCall.Yaml.Cursor
import TagCall.Yaml.Number
import TagCall.Yaml.Timestamp

/-!
Plain scalars: words without quotes. A word that reads as nothing, a truth value, a number or a time
is one; every other word is text.
-/

namespace TagCall.Yaml

def nullWords : List String := ["", "~", "null", "Null", "NULL"]

def trueWords : List String := ["yes", "Yes", "YES", "true", "True", "TRUE", "on", "On", "ON"]

def falseWords : List String := ["no", "No", "NO", "false", "False", "FALSE", "off", "Off", "OFF"]

/-- Words that stand for no value by themselves. -/
def reservedWords : List String := ["=", "<<"]

/-- A value that a word must have. -/
def required {α : Type} : Option α → Except Setting.Failure α
  | some v => .ok v
  | none => .error .unreadable

/-- The value of a plain word. -/
def plainValue (word : List Char) : Except Setting.Failure Scalar :=
  let s := String.ofList word
  if s ∈ nullWords then .ok .null
  else if s ∈ trueWords then .ok (.bool true)
  else if s ∈ falseWords then .ok (.bool false)
  else if s ∈ reservedWords then .error .unreadable
  else
    match pointNumber? word, wholeNumber? word, timestamp? word with
    | some (some x), _, _ => .ok (.float x)
    | some none, _, _ => .error .outOfRange
    | none, some n, _ => required (n.map Scalar.int)
    | none, none, some t => required (t.map Scalar.time)
    | none, none, none => .ok (.text s)

/-- The characters that set off the parts of a flow value. -/
def isFlowMark (c : Char) : Bool :=
  c = ',' || c = '[' || c = ']' || c = '{' || c = '}'

/-- Whether a plain scalar is interrupted here. -/
def endsPlain (flow : Bool) : List Char → Bool
  | [] => true
  | c :: rest =>
    isGap c ||
      (c = ':' && (endsWord rest || (flow && (rest.head?.map isFlowMark).getD false))) ||
      (flow && (isFlowMark c || c = '?'))

/-- Whether a plain scalar can start here. -/
def startsPlain (flow : Bool) : List Char → Bool
  | [] => false
  | c :: rest =>
    if c = '-' || (!flow && (c = '?' || c = ':')) then !endsWord rest
    else !(isGap c || "?:,[]\x7b\x7d#&*!|>'\"%@".toList.contains c || c = '\x60')

/-- The characters up to where a plain scalar is interrupted. -/
def plainRun (flow : Bool) : List Char → List Char
  | [] => []
  | c :: rest => if endsPlain flow (c :: rest) then [] else c :: plainRun flow rest

/-- What stands between two runs of a plain scalar, and where the second would start. -/
def plainGap (c : Cursor) : Option (List Char × Cursor) :=
  let after := c.skipSpaces
  match after.rest with
  | b :: rest =>
    if isBreak b then
      (emptyLines (after.line + 1) 0 rest).map fun (empty, next) => (folded b empty, next)
    else if after.column = c.column then none
    else some (List.replicate (after.column - c.column) ' ', after)
  | [] => none

/-- A plain scalar: runs of characters with gaps between them. Outside flow values it ends at a line
that is indented by less than `floor`. -/
def plainFrom (flow : Bool) (floor : Nat) : Nat → Cursor → List Char × Cursor
  | 0, c => ([], c)
  | fuel + 1, c =>
    let run := plainRun flow c.rest
    let c := c.move run.length
    match plainGap c with
    | none => (run, c)
    | some (gap, next) =>
      if next.rest.head? = some '#' || (!flow && next.column < floor) then (run, c)
      else
        match plainFrom flow floor fuel next with
        | ([], _) => (run, c)
        | (more, c) => (run ++ gap ++ more, c)

def plain (flow : Bool) (floor : Nat) (c : Cursor) : List Char × Cursor :=
  plainFrom flow floor (c.rest.length + 1) c

end TagCall.Yaml
