-- Double-precision numbers as exact data: a sign, a whole mantissa and a
-- power of two. Reading a ratio rounds to the nearest number, a half to the
-- even mantissa; every other operation is exact.

namespace Flowscript

/-- A double-precision number. A finite one is `mantissa · 2 ^ exponent`, and the numbers built by
`Binary64.ofRatio` have either a mantissa of 53 bits or the least exponent `-1074`. -/
inductive Binary64 where
  | finite (negative : Bool) (mantissa : Nat) (exponent : Int)
  | infinite (negative : Bool)
  | nan
deriving DecidableEq, Repr

namespace Binary64

/-- The least exponent of a finite number. -/
def minExponent : Int := -1074

/-- The greatest exponent of a finite number. -/
def maxExponent : Int := 971

/-- Zero with a sign. -/
def zero (negative : Bool) : Binary64 := .finite negative 0 minExponent

/-- `num / den` divided by `2 ^ q`, as a ratio of whole numbers. -/
def scaleRatio (num den : Nat) (q : Int) : Nat × Nat :=
  if 0 ≤ q then (num, den * Nat.pow 2 q.toNat) else (num * Nat.pow 2 (-q).toNat, den)

/-- The whole number nearest to `num / den`, a half going to the even one. -/
def roundRatio (num den : Nat) : Nat :=
  let whole := num / den
  let twice := 2 * (num % den)
  if twice < den then whole
  else if den < twice then whole + 1
  else if whole % 2 = 0 then whole else whole + 1

/-- The exponent at which `num / den` has a mantissa of 53 bits, but not below the least. -/
def targetExponent (num den : Nat) : Int :=
  let q : Int := (Nat.log2 num : Int) - (Nat.log2 den : Int) - 52
  let scaled := scaleRatio num den q
  let fit := if scaled.1 / scaled.2 < Nat.pow 2 52 then q - 1 else q
  max fit minExponent

/-- The number nearest to `num / den`, infinite where no finite number is near enough. -/
def ofRatio (negative : Bool) (num den : Nat) : Binary64 :=
  if num = 0 then zero negative
  else
    let q := targetExponent num den
    let scaled := scaleRatio num den q
    let m := roundRatio scaled.1 scaled.2
    let (m, q) := if m = Nat.pow 2 53 then (Nat.pow 2 52, q + 1) else (m, q)
    if maxExponent < q then .infinite negative else .finite negative m q

/-- The number nearest to a whole number. -/
def ofInt (n : Int) : Binary64 := ofRatio (n < 0) n.natAbs 1

/-- The number nearest to `digits · 10 ^ exponent`. Far outside the range of the format the answer
is settled without computing the power. -/
def ofDecimal (negative : Bool) (digits : Nat) (exponent : Int) : Binary64 :=
  if digits = 0 then zero negative
  else
    let size : Int := (Nat.toDigits 10 digits).length + exponent
    if 310 < size then .infinite negative
    else if size < -330 then zero negative
    else if 0 ≤ exponent then ofRatio negative (digits * Nat.pow 10 exponent.toNat) 1
    else ofRatio negative digits (Nat.pow 10 (-exponent).toNat)

/-- A whole number with a sign. -/
def signed (negative : Bool) (n : Nat) : Int := if negative then -(n : Int) else n

/-- The whole part of a finite number, rounded toward zero. -/
def truncate? : Binary64 → Option Int
  | .finite negative m q =>
    some (signed negative (if 0 ≤ q then m * Nat.pow 2 q.toNat else m / Nat.pow 2 (-q).toNat))
  | _ => none

/-- Whether the number is finite and whole. -/
def isWhole : Binary64 → Bool
  | .finite _ m q => 0 ≤ q || m % Nat.pow 2 (-q).toNat == 0
  | _ => false

/-- Whether the number is zero of either sign. -/
def isZero : Binary64 → Bool
  | .finite _ m _ => m == 0
  | _ => false

/-- Equality as numbers: the two zeros are equal and `nan` differs from everything. -/
def eq : Binary64 → Binary64 → Bool
  | .finite s m q, .finite t n r => (m == 0 && n == 0) || (s == t && m == n && q == r)
  | .infinite s, .infinite t => s == t
  | _, _ => false

/-- Equality with a whole number. -/
def eqInt (x : Binary64) (n : Int) : Bool := x.isWhole && x.truncate? == some n

/-- A finite number as a multiple of `2 ^ minExponent`. -/
def units (negative : Bool) (m : Nat) (q : Int) : Int :=
  signed negative (m * Nat.pow 2 (q - minExponent).toNat)

/-- The distance between two numbers, rounded to a number. -/
def distance : Binary64 → Binary64 → Binary64
  | .finite s m q, .finite t n r =>
    ofRatio false (units s m q - units t n r).natAbs (Nat.pow 2 (-minExponent).toNat)
  | .nan, _ => .nan
  | _, .nan => .nan
  | .infinite s, .infinite t => if s == t then .nan else .infinite false
  | _, _ => .infinite false

/-- Strict order of numbers that are not negative; false as soon as one is `nan`. -/
def ltMagnitude : Binary64 → Binary64 → Bool
  | .finite _ m q, .finite _ n r => units false m q < units false n r
  | .finite .., .infinite _ => true
  | _, _ => false

end Binary64

end Flowscript
