import TagCall.Text.Blank
import TagCall.Text.Digit

/-!
Whole numbers in text: blanks around, one sign, and decimal digits of any script with single
underscores between them.
-/

namespace TagCall.Text

/-- The blanks allowed around a numeral: all but the information separators. -/
def isNumeralBlank (c : Char) : Bool :=
  isBlank c && !(0x1C ≤ c.toNat && c.toNat ≤ 0x1F)

/-- The values of a run of digits; an underscore may stand between two of them. -/
def digitRun : List Char → Option (List Nat)
  | [] => none
  | [c] => (digit? c).map ([·])
  | c :: '_' :: rest => do return (← digit? c) :: (← digitRun rest)
  | c :: rest => do return (← digit? c) :: (← digitRun rest)

/-- The most digits a numeral may have. -/
def maxDigits : Nat := 4300

def limitText : String :=
  "Exceeds the limit (" ++ toString maxDigits ++ " digits) for integer string conversion"

def limitAdvice : String :=
  "; use sys.set_int_max_str_digits() to increase the limit"

/-- What is said of a numeral of too many digits. -/
def overlongNumeral (digits : Nat) : String :=
  limitText ++ ": value has " ++ toString digits ++ " digits" ++ limitAdvice

/-- What is said of a number that has no numeral. -/
def overlongNumber : String :=
  limitText ++ limitAdvice

/-- Whether a number has a numeral. -/
def hasNumeral (n : Int) : Bool :=
  n.natAbs < Nat.pow 10 maxDigits

def ofDigits (ds : List Nat) : Nat :=
  ds.foldl (fun n d => 10 * n + d) 0

def natural? (cs : List Char) : Option Nat := do
  let ds ← digitRun cs
  if ds.length ≤ maxDigits then return ofDigits ds else none

def integer? (cs : List Char) : Option Int :=
  let inner := ((cs.dropWhile isNumeralBlank).reverse.dropWhile isNumeralBlank).reverse
  match inner with
  | '-' :: rest => (natural? rest).map fun n => -(n : Int)
  | '+' :: rest => (natural? rest).map Int.ofNat
  | rest => (natural? rest).map Int.ofNat

end TagCall.Text
