-- Blanks, words and lines. A text is cut at blanks into words, at line breaks
-- into lines, and at a given character into fields; nothing but the cutting
-- characters is lost.

namespace Flowscript.Text

/-! ## Character classes -/

/-- The characters that separate words. -/
def isBlank (c : Char) : Bool :=
  let n := c.toNat
  (0x09 ≤ n && n ≤ 0x0d) || (0x1c ≤ n && n ≤ 0x20) || n == 0x85 || n == 0xa0 || n == 0x1680 ||
    (0x2000 ≤ n && n ≤ 0x200a) || n == 0x2028 || n == 0x2029 || n == 0x202f || n == 0x205f ||
    n == 0x3000

/-- The characters that end a line. -/
def isLineBreak (c : Char) : Bool :=
  let n := c.toNat
  (0x0a ≤ n && n ≤ 0x0d) || (0x1c ≤ n && n ≤ 0x1e) || n == 0x85 || n == 0x2028 || n == 0x2029

/-! ## Trimming -/

/-- The characters without those at the end that satisfy `p`. -/
def dropEndWhile (p : Char → Bool) (cs : List Char) : List Char :=
  (cs.reverse.dropWhile p).reverse

/-- The characters without those at either end that satisfy `p`. -/
def stripChars (p : Char → Bool) (cs : List Char) : List Char :=
  dropEndWhile p (cs.dropWhile p)

/-- The text without the blanks at its two ends. -/
def trim (s : String) : String :=
  String.ofList (stripChars isBlank s.toList)

/-- The text without the blanks at its end. -/
def trimEnd (s : String) : String :=
  String.ofList (dropEndWhile isBlank s.toList)

/-! ## Cutting -/

/-- Puts a character in front of the first piece. -/
def consHead (c : Char) : List (List Char) → List (List Char)
  | [] => [[c]]
  | piece :: rest => (c :: piece) :: rest

/-- The pieces between the occurrences of `sep`; there is always at least one. -/
def cutAt (sep : Char) : List Char → List (List Char)
  | [] => [[]]
  | c :: cs => if c = sep then [] :: cutAt sep cs else consHead c (cutAt sep cs)

/-- The runs of characters that are not blank. -/
def wordChars : List Char → List (List Char)
  | [] => []
  | c :: cs =>
    if isBlank c then wordChars cs
    else match cs with
      | [] => [[c]]
      | d :: _ => if isBlank d then [c] :: wordChars cs else consHead c (wordChars cs)

/-- The lines of a text. A carriage return and the line feed behind it end one line together, and
a break at the very end opens no further line. -/
def lineChars : List Char → List (List Char)
  | [] => []
  | '\r' :: '\n' :: cs => [] :: lineChars cs
  | c :: cs => if isLineBreak c then [] :: lineChars cs else consHead c (lineChars cs)

/-- The fields of a text between the occurrences of `sep`. -/
def splitAt (sep : Char) (s : String) : List String :=
  (cutAt sep s.toList).map String.ofList

/-- The words of a text. -/
def words (s : String) : List String :=
  (wordChars s.toList).map String.ofList

/-- The lines of a text. -/
def lines (s : String) : List String :=
  (lineChars s.toList).map String.ofList

/-! ## Joining -/

/-- The texts in order with `sep` between neighbours. -/
def joinWith (sep : String) : List String → String
  | [] => ""
  | [s] => s
  | s :: rest => s ++ sep ++ joinWith sep rest

/-- The lines in order with a line feed between neighbours. -/
def joinLines (ls : List String) : String := joinWith "\n" ls

end Flowscript.Text
