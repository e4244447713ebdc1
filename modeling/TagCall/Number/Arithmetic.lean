import TagCall.Number.Binary64

/-!
Sums and products of floating-point numbers. Each is the number nearest to the exact result.
-/

namespace TagCall.Binary64

/-- The number nearest to `m * 2 ^ e`. -/
def ofScaled (negative : Bool) (m : Nat) (e : Int) : Binary64 :=
  let (num, den) := scale m 1 e
  ofRatio negative num den

def zero : Binary64 := finite false 0 minExponent

/-- The number nearest to a whole number. -/
def ofNat (n : Nat) : Binary64 := ofRatio false n 1

def neg : Binary64 → Binary64
  | finite negative m e => finite (!negative) m e
  | infinite negative => infinite !negative
  | nan => nan

/-- The product. Zero and infinity have none. -/
def mul : Binary64 → Binary64 → Binary64
  | finite s m e, finite t n f => ofScaled (s != t) (m * n) (e + f)
  | infinite s, infinite t => infinite (s != t)
  | infinite s, finite t m _ | finite s m _, infinite t => if m = 0 then nan else infinite (s != t)
  | nan, _ | _, nan => nan

/-- A whole multiple of a power of two as a signed multiple of a lower one. -/
def multipleOf (low : Int) (negative : Bool) (m : Nat) (e : Int) : Int :=
  let n : Int := (m * Nat.pow 2 (e - low).toNat : Nat)
  if negative then -n else n

/-- The sum. It is a negative zero only if both are. Opposite infinities have none. -/
def add : Binary64 → Binary64 → Binary64
  | finite s m e, finite t n f =>
    let low := min e f
    let sum := multipleOf low s m e + multipleOf low t n f
    if sum = 0 then finite (s && t) 0 minExponent
    else ofScaled (sum < 0) sum.natAbs low
  | infinite s, infinite t => if s = t then infinite s else nan
  | infinite s, finite .. | finite .., infinite s => infinite s
  | nan, _ | _, nan => nan

end TagCall.Binary64
