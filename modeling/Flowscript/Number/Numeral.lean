-- Numbers written by hand in a text. A whole number is a sign and decimal
-- digits of any script; a decimal number may have a point and an exponent.
-- Single underscores may stand between digits.
import Flowscript.Number.Binary64
import Flowscript.Text.Blank
import Flowscript.Text.Digit

namespace Flowscript.Numeral

/-- The most digits that a whole number may have. -/
def maxDigits : Nat := 4300

/-- Why a text is no whole number. -/
inductive Refusal where
  | notWhole
  | tooLong (digits : Nat)
deriving DecidableEq, Repr

/-- The blanks that may surround a number; the separators U+001C to U+001F are not among them. -/
def isOuterBlank (c : Char) : Bool :=
  Text.isBlank c && !(0x1c ≤ c.toNat && c.toNat ≤ 0x1f)

/-- A leading sign, true for minus, and what follows it. -/
def takeSign : List Char → Bool × List Char
  | '-' :: rest => (true, rest)
  | '+' :: rest => (false, rest)
  | rest => (false, rest)

/-- Whether each underscore stands between two decimal digits; `before` tells whether a digit was
passed last. -/
def underscoresFit (before : Bool) : List Char → Bool
  | [] => true
  | '_' :: rest =>
    before && (rest.head?.map Text.isDecimal).getD false && underscoresFit false rest
  | c :: rest => underscoresFit (Text.isDecimal c) rest

/-- Drops the underscores. -/
def withoutUnderscores (cs : List Char) : List Char := cs.filter (· ≠ '_')

/-- Reads a whole number. A run of digits that is too long is reported before anything that stands
behind it. -/
def readWhole (s : String) : Except Refusal Int :=
  let (negative, body) := takeSign (Text.stripChars isOuterBlank s.toList)
  let (run, rest) := body.span fun c => Text.isDecimal c || c = '_'
  let digits := withoutUnderscores run
  if digits.isEmpty || !underscoresFit false run then .error .notWhole
  else if maxDigits < digits.length then .error (.tooLong digits.length)
  else if !rest.isEmpty then .error .notWhole
  else .ok (Binary64.signed negative (Text.digitsValue digits))

/-- The texts for infinity and for a number that is none, in lower case. -/
def specials (negative : Bool) : List (String × Binary64) :=
  [("inf", .infinite negative), ("infinity", .infinite negative), ("nan", .nan)]

/-- A decimal exponent with its mark, which takes all the characters. -/
def readExponent? : List Char → Option Int
  | [] => some 0
  | e :: rest =>
    if e = 'e' || e = 'E' then
      let (negative, digits) := takeSign rest
      if !digits.isEmpty && digits.all Text.isDecimal then
        some (Binary64.signed negative (Text.digitsValue digits))
      else none
    else none

/-- Reads an unsigned decimal number. -/
def readUnsigned? (negative : Bool) (cs : List Char) : Option Binary64 :=
  let (whole, rest) := cs.span Text.isDecimal
  let (behind, rest) := match rest with
    | '.' :: rest => rest.span Text.isDecimal
    | rest => ([], rest)
  if whole.isEmpty && behind.isEmpty then none
  else (readExponent? rest).map fun e =>
    Binary64.ofDecimal negative (Text.digitsValue (whole ++ behind)) (e - (behind.length : Int))

/-- Reads a decimal number, or one of the special texts in any mixture of cases. -/
def readReal? (s : String) : Option Binary64 :=
  let cs := Text.stripChars isOuterBlank s.toList
  if !underscoresFit false cs then none
  else
    let (negative, body) := takeSign (withoutUnderscores cs)
    match (specials negative).lookup (String.ofList (body.map Char.toLower)) with
    | some x => some x
    | none => readUnsigned? negative body

end Flowscript.Numeral
