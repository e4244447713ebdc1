import TagCall.Number.Arithmetic
import TagCall.Text.Numeral

/-!
Words that are numbers: whole ones to the bases 2, 8, 10, 16 and 60, and ones with a point, to the
bases 10 and 60.
-/

namespace TagCall.Yaml

def splitSign : List Char → Bool × List Char
  | '-' :: rest => (true, rest)
  | '+' :: rest => (false, rest)
  | cs => (false, cs)

def signed (negative : Bool) (n : Nat) : Int :=
  if negative then -(n : Int) else n

/-- Digits of a base, underscores dropped, if there is no other character. -/
def digitsOf (base : Nat) (cs : List Char) : Option (List Nat) :=
  cs.foldr (fun c ds => do
    let ds ← ds
    if c = '_' then return ds
    else
      let d ← Text.hexDigit? c
      if d < base then return d :: ds else none) (some [])

/-- The number of digits of a base. A decimal one may not be too long. -/
def valueOf (base : Nat) (ds : List Nat) : Option Nat :=
  if ds.isEmpty || (base = 10 && Text.maxDigits < ds.length) then none
  else some (ds.foldl (fun n d => base * n + d) 0)

/-- Cuts a text at its colons. -/
def splitColons : List Char → List (List Char)
  | [] => [[]]
  | ':' :: rest => [] :: splitColons rest
  | c :: rest =>
    match splitColons rest with
    | [] => [[c]]
    | first :: more => (c :: first) :: more

/-- A number below 60 of one or two digits. -/
def sixtieth? : List Char → Option Nat
  | [c] => if c.isDigit then some (c.toNat - '0'.toNat) else none
  | [c, d] =>
    if '0' ≤ c ∧ c ≤ '5' ∧ d.isDigit then some (10 * (c.toNat - '0'.toNat) + (d.toNat - '0'.toNat))
    else none
  | _ => none

/-- Parts to the base 60, all but the first below it. -/
def sixtyValue (first : Nat) (parts : List Nat) : Nat :=
  parts.foldl (fun n d => 60 * n + d) first

/-- Whether decimal digits and underscores follow a digit. -/
def isDecimal : List Char → Bool
  | [] => false
  | c :: rest => c.isDigit && rest.all fun c => c.isDigit || c = '_'

/-- A word of the form of a whole number, and the number if it has one. -/
def wholeNumber? (word : List Char) : Option (Option Int) :=
  let (negative, body) := splitSign word
  let result (base : Nat) (ds : List Nat) : Option Int := (valueOf base ds).map (signed negative)
  match body with
  | ['0'] => some (some 0)
  | '0' :: 'b' :: rest =>
    if rest.isEmpty then none else (digitsOf 2 rest).map (result 2)
  | '0' :: 'x' :: rest =>
    if rest.isEmpty then none else (digitsOf 16 rest).map (result 16)
  | '0' :: rest => (digitsOf 8 rest).map fun ds => result 8 (0 :: ds)
  | _ =>
    match splitColons body with
    | [] => none
    | first :: parts =>
      if isDecimal first then do
        let parts ← parts.mapM sixtieth?
        let ds ← digitsOf 10 first
        return (valueOf 10 ds).map fun n => signed negative (sixtyValue n parts)
      else none

/-- The exponent at the end of a number: a letter, a sign that must be there, and digits. -/
def exponent? : List Char → Option Int
  | [] => some 0
  | e :: s :: ds =>
    if (e = 'e' ∨ e = 'E') ∧ (s = '+' ∨ s = '-') ∧ !ds.isEmpty ∧ ds.all Char.isDigit then
      some (signed (s = '-') ((digitsOf 10 ds).getD [] |>.foldl (fun n d => 10 * n + d) 0))
    else none
  | _ => none

/-- The sum of parts to the base 60, given from the last on and added up in this order, each times
its power of 60. From the power `k` on that is out of range there is no sum. -/
def sixtySum (sum : Binary64) (k : Nat) : List Binary64 → Option Binary64
  | [] => some sum
  | part :: rest =>
    match Binary64.ofNat (Nat.pow 60 k) with
    | .infinite _ => none
    | unit => sixtySum (sum.add (part.mul unit)) (k + 1) rest

/-- The number of digits around a point, times a power of ten. -/
def decimalNumber (whole decimals : List Nat) (e : Int) : Binary64 :=
  .ofDecimal false (Text.ofDigits (whole ++ decimals)) (e - decimals.length)

/-- The number of parts to the base 60, given from the last on, which has decimals. -/
def sixtyNumber? (decimals : List Nat) : List Nat → Option Binary64
  | [] => none
  | last :: before =>
    sixtySum .zero 0 (decimalNumber [last] decimals 0 :: before.map Binary64.ofNat)

/-- A word of the form of a number with a point, and the number if it has one. -/
def pointNumber? (word : List Char) : Option (Option Binary64) :=
  let (negative, body) := splitSign word
  let withSign (x : Binary64) : Binary64 := if negative then x.neg else x
  let whole := body.takeWhile (· ≠ '.')
  match body.dropWhile (· ≠ '.') with
  | '.' :: rest =>
    if whole = [] ∧ String.ofList rest ∈ ["inf", "Inf", "INF"] then some (some (.infinite negative))
    else if String.ofList word ∈ [".nan", ".NaN", ".NAN"] then some (some .nan)
    else do
      let fraction := rest.takeWhile fun c => c.isDigit || c = '_'
      let after := rest.drop fraction.length
      let decimals ← digitsOf 10 fraction
      let e ← exponent? after
      match splitColons whole with
      | [] | [[]] =>
        if word = body ∧ isDecimal fraction then return decimalNumber [] decimals e else none
      | first :: parts =>
        let ds ← digitsOf 10 first
        let parts ← parts.mapM sixtieth?
        if !isDecimal first then none
        else if parts.isEmpty then return withSign (decimalNumber ds decimals e)
        else if after.isEmpty then
          return (sixtyNumber? decimals (parts.reverse ++ [Text.ofDigits ds])).map withSign
        else none
  | _ => none

end TagCall.Yaml
