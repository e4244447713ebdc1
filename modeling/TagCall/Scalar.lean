import TagCall.Number.Binary64
import TagCall.Text.Numeral
import TagCall.Text.Quoted
import TagCall.Timestamp

/-!
The values that have no parts: nothing, truth values, numbers, times and text. Truth values count as
the numbers 0 and 1, and numbers are compared by value, whatever their form.
-/

namespace TagCall

inductive Scalar where
  | null
  | bool (b : Bool)
  | int (n : Int)
  | float (x : Binary64)
  | time (t : Timestamp)
  | text (s : String)
  deriving DecidableEq, Repr

/-- A value that can not be written: a whole number in it has too many digits. -/
structure Overlong where
  deriving DecidableEq, Repr

def Overlong.message (_ : Overlong) : String :=
  Text.overlongNumber

namespace Scalar

/-- Whether a value can be written. -/
def isWritable : Scalar → Bool
  | int n => Text.hasNumeral n
  | _ => true

/-- A value as plain text; text stands for itself. -/
def toText : Scalar → String
  | null => "None"
  | bool b => if b then "True" else "False"
  | int n => toString n
  | float x => x.toText
  | time t => t.toText
  | text s => s

/-- A value as messages show it; text is quoted. -/
def describe : Scalar → String
  | text s => Text.quoted s
  | time t => t.describe
  | v => v.toText

def isTruthy : Scalar → Bool
  | null => false
  | bool b => b
  | int n => n ≠ 0
  | float x => !x.isZero
  | time _ => true
  | text s => s ≠ ""

/-- The ratio that a truth value or a number stands for. -/
def ratio? : Scalar → Option (Int × Nat)
  | bool b => some (if b then 1 else 0, 1)
  | int n => some (n, 1)
  | float x => x.ratio?
  | _ => none

/-- The order of two ratios; of infinite ones, by sign. -/
def ratioLe (a b : Int × Nat) : Bool :=
  if a.2 = 0 ∧ b.2 = 0 then a.1 ≤ b.1 else a.1 * b.2 ≤ b.1 * a.2

/-- Whether two values are the same member of a set: numbers and times by value, all else by
form. -/
def same (a b : Scalar) : Bool :=
  match a, b with
  | time s, time t => s.same t
  | _, _ =>
    match a.ratio?, b.ratio? with
    | some r, some q => ratioLe r q && ratioLe q r
    | none, none => a = b
    | _, _ => false

/-- Whether two values are equal. What is not a number equals nothing, though it is the same member
of a set as itself. -/
def equal (a b : Scalar) : Bool :=
  a ≠ float .nan && a.same b

def isNumber : Scalar → Bool
  | bool _ | int _ | float _ => true
  | _ => false

/-- The order of two numbers, two times or two texts; other pairs have none. Texts are ordered by
code point. What is not a number stands before and behind every number. -/
def le? (a b : Scalar) : Option Bool :=
  match a, b with
  | text s, text t => some (s ≤ t)
  | time s, time t => s.le? t
  | _, _ =>
    if a.isNumber && b.isNumber then
      match a.ratio?, b.ratio? with
      | some r, some q => some (ratioLe r q)
      | _, _ => some true
    else none

end Scalar

end TagCall
