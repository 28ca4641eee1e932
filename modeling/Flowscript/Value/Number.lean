-- Numbers in configuration values. Truth values count as zero and one, and a
-- text may spell a number. What is no number is refused with a reason. A
-- whole number of too many digits is a number, but it cannot be printed, and
-- neither can a value that holds one.
import Flowscript.Number.Numeral
import Flowscript.Value.Shown

namespace Flowscript

/-- Why a value is no number of the wanted kind. -/
inductive NumberFault where
  | wholeText (s : String)
  | realText (s : String)
  | tooLong (digits : Nat)
  | tooWide
  | wholeType (name : String)
  | realType (name : String)
  | infinite
  | notANumber
  | tooLarge
deriving DecidableEq, Repr

/-- The wording of a reason. A quoted text is cut after two hundred characters where a whole number
was wanted. -/
def NumberFault.message : NumberFault → String
  | .wholeText s =>
    "invalid literal for int() with base 10: " ++
      String.ofList ((Text.quoted s).toList.take 200)
  | .realText s => "could not convert string to float: " ++ Text.quoted s
  | .tooLong digits =>
    s!"Exceeds the limit ({Numeral.maxDigits} digits) for integer string conversion: value has " ++
      s!"{digits} digits; use sys.set_int_max_str_digits() to increase the limit"
  | .tooWide =>
    s!"Exceeds the limit ({Numeral.maxDigits} digits) for integer string conversion; " ++
      "use sys.set_int_max_str_digits() to increase the limit"
  | .wholeType name =>
    s!"int() argument must be a string, a bytes-like object or a real number, not '{name}'"
  | .realType name => s!"float() argument must be a string or a real number, not '{name}'"
  | .infinite => "cannot convert float infinity to integer"
  | .notANumber => "cannot convert float NaN to integer"
  | .tooLarge => "int too large to convert to float"

/-- The whole number that a text spells. -/
def wholeOfText (s : String) : Except NumberFault Int :=
  match Numeral.readWhole s with
  | .ok n => .ok n
  | .error .notWhole => .error (.wholeText s)
  | .error (.tooLong digits) => .error (.tooLong digits)

/-- Whether a whole number has few enough digits to be printed. -/
def isShort (n : Int) : Bool := (Nat.toDigits 10 n.natAbs).length ≤ Numeral.maxDigits

/-- The digits of a whole number, which may not be too many. -/
def wholeText (n : Int) : Except NumberFault String :=
  if isShort n then .ok (toString n) else .error .tooWide

namespace Value

mutual

/-- Whether every whole number inside a value can be printed. -/
def isPrintable : Value → Bool
  | .int n => isShort n
  | .list items => itemsPrintable items
  | .object fields => fieldsPrintable fields
  | _ => true

/-- Whether every item of a list can be printed. -/
def itemsPrintable : List Value → Bool
  | [] => true
  | v :: rest => isPrintable v && itemsPrintable rest

/-- Whether every field of an object can be printed. -/
def fieldsPrintable : List (String × Value) → Bool
  | [] => true
  | (_, v) :: rest => isPrintable v && fieldsPrintable rest

end

/-- The whole number that a value stands for; a double is rounded toward zero. -/
def toWhole : Value → Except NumberFault Int
  | .bool b => .ok (ofFlag b)
  | .int n => .ok n
  | .real .nan => .error .notANumber
  | .real x => match x.truncate? with
    | some n => .ok n
    | none => .error .infinite
  | .text s => wholeOfText s
  | v => .error (.wholeType v.typeName)

/-- A whole number as a double. -/
def realOfInt (n : Int) : Except NumberFault Binary64 :=
  match Binary64.ofInt n with
  | .infinite _ => .error .tooLarge
  | x => .ok x

/-- The double that a value stands for. -/
def toReal : Value → Except NumberFault Binary64
  | .bool b => realOfInt (ofFlag b)
  | .int n => realOfInt n
  | .real x => .ok x
  | .text s => match Numeral.readReal? s with
    | some x => .ok x
    | none => .error (.realText s)
  | v => .error (.realType v.typeName)

end Value

end Flowscript
