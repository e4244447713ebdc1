import TagCall.Length
import TagCall.Setting.Basic
import TagCall.Text.Numeral

/-!
Indentation units, and how a setting names one: a number of spaces, with or without the word
`spaces:` in front, or a tab.
-/

namespace TagCall

inductive Indent where
  | spaces (width : Nat)
  | tab
  deriving DecidableEq, Repr

namespace Indent

def standard : Indent := spaces 4

/-- The text of one level. -/
def unit : Indent → List Char
  | spaces width => List.replicate width ' '
  | tab => ['\t']

/-- The indentation of a depth. -/
def levels (depth : Nat) : Indent → List Char
  | spaces width => List.replicate (depth * width) ' '
  | tab => List.replicate depth '\t'

theorem levels_eq (depth : Nat) (i : Indent) :
    i.levels depth = (List.replicate depth i.unit).flatten := by
  cases i <;> simp [levels, unit]

def width : Indent → Nat
  | spaces width => width
  | tab => 1

def toText : Indent → String
  | spaces width => toString width
  | tab => "tab"

/-- Why a unit can not be written out. -/
inductive Excess where
  /-- It is longer than any text. -/
  | length
  /-- It is longer than there is memory for. -/
  | memory
  deriving DecidableEq, Repr

def Excess.message : Excess → String
  | length => "the indentation is longer than any text"
  | memory => "there is no memory for the indentation"

def excess? (i : Indent) : Option Excess :=
  if i.width ≤ maxMemory then none
  else if i.width ≤ maxLength then some .memory
  else some .length

/-- The text of one level, if it can be written out. -/
def unit? (i : Indent) : Except Excess (List Char) :=
  match i.excess? with
  | some e => .error e
  | none => .ok i.unit

inductive Error where
  /-- A setting that names no unit. -/
  | malformed (shown : String)
  | negative (width : Int)
  | overlong (e : Overlong)
  deriving DecidableEq, Repr

def Error.message : Error → String
  | malformed shown => "Invalid indent " ++ shown ++ ": expected a number, 'spaces:N' or 'tab'"
  | negative width => "Indent width must be >= 0, got " ++ toString width
  | overlong e => e.message

def ofWidth (width : Int) : Except Error Indent :=
  if 0 ≤ width then .ok (spaces width.toNat) else .error (.negative width)

/-- The words that name a tab. -/
def tabNames : List (List Char) :=
  [['t', 'a', 'b'], ['t', 'a', 'b', 's'], ['\\', 't']]

def spacesWord : List Char :=
  ['s', 'p', 'a', 'c', 'e', 's', ':']

/-- Drops one `spaces:` in front. -/
def dropSpacesWord (cs : List Char) : List Char :=
  if spacesWord.isPrefixOf cs then cs.drop spacesWord.length else cs

def ofText? (s : String) : Option Indent :=
  if s = "\t" then some tab
  else
    let word := Text.lower (Text.strip s.toList)
    if word ∈ tabNames then some tab
    else
      match Text.integer? (dropSpacesWord word) with
      | some (.ofNat width) => some (spaces width)
      | _ => none

/-- The unit that a setting names by its text. -/
def ofSetting (v : Setting) : Except Error Indent :=
  match v.plain with
  | .error e => .error (.overlong e)
  | .ok s =>
    match ofText? s with
    | some indent => .ok indent
    | none => .error (.malformed v.describe)

end Indent

end TagCall
