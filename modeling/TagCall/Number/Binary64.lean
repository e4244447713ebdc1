/-!
Floating-point numbers of 64 bits, held exactly as a whole number times a power of two. A decimal
is read as the nearest of them, and written with the fewest digits that read back.
-/

namespace TagCall

inductive Binary64 where
  /-- `mantissa * 2 ^ exponent`, with the given sign. -/
  | finite (negative : Bool) (mantissa : Nat) (exponent : Int)
  | infinite (negative : Bool)
  | nan
  deriving DecidableEq, Repr

namespace Binary64

def minExponent : Int := -1074

def maxExponent : Int := 971

/-- A ratio of whole numbers times a power of two, as a numerator and a denominator. -/
def scale (num den : Nat) (e : Int) : Nat × Nat :=
  if 0 ≤ e then (num * Nat.pow 2 e.toNat, den) else (num, den * Nat.pow 2 (-e).toNat)

/-- The whole number nearest to a ratio; of two, the even one. -/
def nearest (num den : Nat) : Nat :=
  let q := num / den
  let r := num % den
  if 2 * r < den ∨ (2 * r = den ∧ q % 2 = 0) then q else q + 1

/-- The number nearest to `num / den`. -/
def ofRatio (negative : Bool) (num den : Nat) : Binary64 :=
  if num = 0 then finite negative 0 minExponent
  else
    let low := max ((num.log2 : Int) - den.log2 - 53) minExponent
    let (n, d) := scale num den (-low)
    let e := if n / d < Nat.pow 2 53 then low else low + 1
    let (n, d) := scale num den (-e)
    let m := nearest n d
    let (m, e) := if m = Nat.pow 2 53 then (Nat.pow 2 52, e + 1) else (m, e)
    if e ≤ maxExponent then finite negative m e else infinite negative

/-- The number nearest to `digits * 10 ^ exponent`. Exponents far out of range need no power. -/
def ofDecimal (negative : Bool) (digits : Nat) (exponent : Int) : Binary64 :=
  let size := ((Nat.toDigits 10 digits).length : Int) + exponent
  if digits = 0 ∨ size < -400 then finite negative 0 minExponent
  else if 400 < size then infinite negative
  else if 0 ≤ exponent then ofRatio negative (digits * Nat.pow 10 exponent.toNat) 1
  else ofRatio negative digits (Nat.pow 10 (-exponent).toNat)

/-- How many zeros follow the point of `num / den`, a ratio below one. -/
def leadingZeros : Nat → Nat → Nat → Nat
  | 0, _, _ => 0
  | fuel + 1, num, den => if den ≤ num * 10 then 0 else leadingZeros fuel (num * 10) den + 1

/-- The `p` with `10 ^ (p - 1) ≤ num / den < 10 ^ p`. -/
def magnitude (num den : Nat) : Int :=
  if den ≤ num then (Nat.toDigits 10 (num / den)).length
  else -(leadingZeros 400 num den : Int)

/-- The digits of the multiple of `10 ^ (p - count)` that is nearest to `m * 2 ^ e`, if one reads
back as it: if it lies between the half-way points to the two neighbours, ends included for an even
`m`. -/
def digitsOnGrid (m : Nat) (e : Int) (p : Int) (count : Nat) : Option Nat :=
  let lowGap := if m = Nat.pow 2 52 ∧ minExponent < e then 1 else 2
  let (a, b) := scale 1 1 (e - 2)
  let grid := p - count
  let s := if 0 ≤ grid then Nat.pow 10 grid.toNat else 1
  let t := if 0 ≤ grid then 1 else Nat.pow 10 (-grid).toNat
  let unit := s * b
  let value := 4 * m * a * t
  let low := (4 * m - lowGap) * a * t
  let high := (4 * m + 2) * a * t
  let readsBack (c : Nat) : Bool :=
    if m % 2 = 0 then low ≤ c * unit && c * unit ≤ high else low < c * unit && c * unit < high
  let c := value / unit
  let below := value - c * unit
  let above := (c + 1) * unit - value
  match readsBack c, readsBack (c + 1) with
  | true, true => some (if below < above ∨ (below = above ∧ c % 2 = 0) then c else c + 1)
  | true, false => some c
  | false, true => some (c + 1)
  | false, false => none

/-- The fewest digits that read back, without zeros at the end, and the place of the point counted
from the first digit. -/
def shortest (m : Nat) (e : Int) : List Char × Int :=
  let (num, den) := scale m 1 e
  let p := magnitude num den
  let counts := (List.range 17).map (· + 1)
  match counts.findSome? fun count => (digitsOnGrid m e p count).map (count, ·) with
  | none => (['0'], 1)
  | some (count, c) =>
    let ds := Nat.toDigits 10 c
    ((ds.reverse.dropWhile (· = '0')).reverse, p + ds.length - count)

private def zeroRun (n : Int) : List Char :=
  List.replicate n.toNat '0'

/-- Digits with a point: positional from four zeros after the point up to sixteen digits before it,
else with an exponent of at least two digits. -/
def layout (ds : List Char) (point : Int) : List Char :=
  if -4 < point ∧ point ≤ 16 then
    if point ≤ 0 then '0' :: '.' :: (zeroRun (-point) ++ ds)
    else if point < ds.length then ds.take point.toNat ++ '.' :: ds.drop point.toNat
    else ds ++ zeroRun (point - ds.length) ++ ['.', '0']
  else
    let e := point - 1
    let size := Nat.toDigits 10 e.natAbs
    let size := if size.length < 2 then '0' :: size else size
    let tail := ds.drop 1
    ds.take 1 ++ (if tail.isEmpty then [] else '.' :: tail) ++
      'e' :: (if e < 0 then '-' else '+') :: size

def sign (negative : Bool) : List Char :=
  if negative then ['-'] else []

def toChars : Binary64 → List Char
  | finite negative 0 _ => sign negative ++ ['0', '.', '0']
  | finite negative m e =>
    let (ds, point) := shortest m e
    sign negative ++ layout ds point
  | infinite negative => sign negative ++ ['i', 'n', 'f']
  | nan => ['n', 'a', 'n']

def toText (x : Binary64) : String :=
  String.ofList x.toChars

/-- A number as a ratio; an infinite one has the denominator 0. -/
def ratio? : Binary64 → Option (Int × Nat)
  | finite negative m e =>
    let (num, den) := scale m 1 e
    some (if negative then -(num : Int) else num, den)
  | infinite negative => some (if negative then -1 else 1, 0)
  | nan => none

def isZero : Binary64 → Bool
  | finite _ m _ => m = 0
  | _ => false

end Binary64

end TagCall
