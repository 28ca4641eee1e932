-- Decimal text of double-precision numbers: the fewest digits that read back
-- as the same number, and of those the nearest. The digits are found by
-- trying one digit, two digits, and so on, against the exact interval of
-- reals that round to the number.
import Flowscript.Number.Binary64

namespace Flowscript.Shortest

/-- A decimal number: `digits` are written behind each other and the point stands so that the
first of them counts `10 ^ exponent`. -/
structure Decimal where
  digits : Nat
  exponent : Int
deriving DecidableEq, Repr

/-- `d · 10 ^ s` and `x · 2 ^ a` brought to a common scale. -/
def align (d : Nat) (s : Int) (x : Nat) (a : Int) : Nat × Nat :=
  (d * Nat.pow 10 s.toNat * Nat.pow 2 (-a).toNat, x * Nat.pow 2 a.toNat * Nat.pow 10 (-s).toNat)

/-- How many decimal digits a number has. -/
def width (n : Nat) : Nat := (Nat.toDigits 10 n).length

/-- The power of ten of the first digit of `num / den`, for positive `num` and `den`. -/
def leadingPower (num den : Nat) : Int :=
  if den ≤ num then (width (num / den) : Int) - 1
  else
    let w := width (den / num)
    if den ≤ num * Nat.pow 10 (w - 1) then -((w : Int) - 1) else -(w : Int)

/-- The interval of reals that round to `m · 2 ^ q`, in quarters of `2 ^ q`. -/
def quarters (m : Nat) (q : Int) : Nat × Nat :=
  (if m = Nat.pow 2 52 ∧ Binary64.minExponent < q then 4 * m - 1 else 4 * m - 2, 4 * m + 2)

/-- Whether `d · 10 ^ s` rounds to `m · 2 ^ q`; the ends of the interval count for an even `m`. -/
def readsBack (m : Nat) (q : Int) (d : Nat) (s : Int) : Bool :=
  let (low, high) := quarters m q
  let (x, l) := align d s low (q - 2)
  let h := (align d s high (q - 2)).2
  if m % 2 = 0 then l ≤ x && x ≤ h else l < x && x < h

/-- The digits of length `n` that read back, if any: of the two neighbours of the number the nearer
one, and of two equally near the even one. -/
def withDigits (m : Nat) (q : Int) (power : Int) (n : Nat) : Option Decimal :=
  let s := power - (n : Int) + 1
  let (unit, value) := align 1 s m q
  let low := value / unit
  let high := low + 1
  let lowGap := value - low * unit
  let highGap := high * unit - value
  let preferLow := lowGap < highGap || (lowGap == highGap && low % 2 == 0)
  let pick := fun d => (⟨d, if width d > n then power + 1 else power⟩ : Decimal)
  match readsBack m q low s, readsBack m q high s with
  | true, true => some (pick (if preferLow then low else high))
  | true, false => some (pick low)
  | false, true => some (pick high)
  | false, false => none

/-- The number without its trailing zeros. -/
def dropZeros : Nat → Nat → Nat
  | 0, n => n
  | fuel + 1, n => if n % 10 = 0 && n != 0 then dropZeros fuel (n / 10) else n

/-- The shortest decimal number that reads back as `m · 2 ^ q`, for positive `m`. -/
def decimal (m : Nat) (q : Int) : Decimal :=
  let power :=
    if 0 ≤ q then leadingPower (m * Nat.pow 2 q.toNat) 1 else leadingPower m (Nat.pow 2 (-q).toNat)
  match (List.range 17).findSome? fun k => withDigits m q power (k + 1) with
  | some d => ⟨dropZeros 17 d.digits, d.exponent⟩
  | none => ⟨m, power⟩

/-- `n` zeros. -/
def zeros (n : Nat) : String := String.ofList (List.replicate n '0')

/-- Positional notation is used from `10 ^ -4` up to but not including `10 ^ 16`. -/
def isPositional (exponent : Int) : Bool := -4 ≤ exponent && exponent < 16

/-- A decimal exponent has a sign and at least two digits. -/
def exponentText (e : Int) : String :=
  let size := toString e.natAbs
  (if e < 0 then "-" else "+") ++ (if size.length < 2 then "0" ++ size else size)

/-- The text of a decimal number; positional notation always has a digit behind the point. -/
def Decimal.text (d : Decimal) : String :=
  let digits := toString d.digits
  let n := digits.length
  if isPositional d.exponent then
    if d.exponent < 0 then "0." ++ zeros ((-d.exponent).toNat - 1) ++ digits
    else
      let before := d.exponent.toNat + 1
      if n ≤ before then digits ++ zeros (before - n) ++ ".0"
      else String.ofList (digits.toList.take before) ++ "." ++
        String.ofList (digits.toList.drop before)
  else
    let point := if n = 1 then "" else "." ++ String.ofList (digits.toList.drop 1)
    String.ofList (digits.toList.take 1) ++ point ++ "e" ++ exponentText d.exponent

end Flowscript.Shortest

namespace Flowscript.Binary64

/-- How the numbers that are no decimal numbers are spelled. -/
structure Spelling where
  infinity : String
  nan : String

/-- The spelling in messages. -/
def plainSpelling : Spelling := ⟨"inf", "nan"⟩

/-- The spelling in literals. -/
def literalSpelling : Spelling := ⟨"Infinity", "NaN"⟩

/-- The text of a number. -/
def text (sp : Spelling) : Binary64 → String
  | .finite negative m q =>
    (if negative then "-" else "") ++ (if m = 0 then "0.0" else (Shortest.decimal m q).text)
  | .infinite negative => (if negative then "-" else "") ++ sp.infinity
  | .nan => sp.nan

end Flowscript.Binary64
