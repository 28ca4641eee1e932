-- Upper and lower case of whole texts. Case is mapped letter by letter,
-- except that a capital sigma becomes the final small sigma where it ends a
-- word.
import Flowscript.Text.CaseTable
import Flowscript.Text.Printable

namespace Flowscript.Text

/-- The letter that a list of shifts makes of a code point. -/
def shiftCode (shifts : List CaseShift) (n : Nat) : Nat :=
  match shifts.find? fun s => s.first ≤ n && n ≤ s.last && (n - s.first) % s.stride == 0 with
  | some s => ((n : Int) + s.delta).toNat
  | none => n

/-- The letters that one letter becomes. -/
def mapLetter (shifts : List CaseShift) (expansions : List (Nat × List Nat)) (c : Char) :
    List Char :=
  match expansions.lookup c.toNat with
  | some codes => codes.map Char.ofNat
  | none => [Char.ofNat (shiftCode shifts c.toNat)]

/-- Whether a character is skipped when looking for a neighbouring letter. -/
def isCaseIgnorable (c : Char) : Bool := inRanges caseIgnorableRanges c.toNat

/-- Whether a character is a letter with a case. -/
def isCased (c : Char) : Bool := inRanges casedRanges c.toNat

/-- Whether the first character that is not skipped is a letter with a case. -/
def meetsCased (cs : List Char) : Bool :=
  ((cs.dropWhile isCaseIgnorable).head?.map isCased).getD false

/-- Lower case of `cs`, where `before` holds the characters already passed, the last one first. -/
def lowerFrom (before : List Char) : List Char → List Char
  | [] => []
  | c :: cs =>
    let here :=
      if c = 'Σ' then [if meetsCased before && !meetsCased cs then 'ς' else 'σ']
      else mapLetter lowerShifts lowerExpansions c
    here ++ lowerFrom (c :: before) cs

/-- The text in lower case. -/
def lower (s : String) : String := String.ofList (lowerFrom [] s.toList)

/-- The text in upper case. -/
def upper (s : String) : String :=
  String.ofList (s.toList.flatMap (mapLetter upperShifts upperExpansions))

end Flowscript.Text
