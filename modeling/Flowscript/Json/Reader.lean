-- Reading JSON text. A refusal tells what was expected and where; positions
-- are kept as the number of characters left, so that no reader has to count
-- what it has passed.
import Flowscript.Number.Numeral
import Flowscript.Value.Basic

namespace Flowscript.Json

/-! ## Refusals -/

/-- What is wrong at a place of a text. -/
inductive Problem where
  | value
  | fieldName
  | colon
  | comma
  | openText
  | escape
  | unitEscape
  | controlCharacter
  | extraData
  | byteOrderMark
deriving DecidableEq, Repr

/-- The wording of a problem. -/
def Problem.message : Problem → String
  | .value => "Expecting value"
  | .fieldName => "Expecting property name enclosed in double quotes"
  | .colon => "Expecting ':' delimiter"
  | .comma => "Expecting ',' delimiter"
  | .openText => "Unterminated string starting at"
  | .escape => "Invalid \\escape"
  | .unitEscape => "Invalid \\uXXXX escape"
  | .controlCharacter => "Invalid control character at"
  | .extraData => "Extra data"
  | .byteOrderMark => "Unexpected UTF-8 BOM (decode using utf-8-sig)"

/-- Why reading stopped: a problem with `left` characters still to come, or a whole number with
more digits than are allowed. -/
inductive Stop where
  | malformed (problem : Problem) (left : Nat)
  | longNumber (digits : Nat)
deriving DecidableEq, Repr

/-- Stops in front of `rest`. -/
def stopAt (problem : Problem) (rest : List Char) : Except Stop α :=
  .error (.malformed problem rest.length)

/-! ## Blanks and words -/

/-- The blanks of JSON. -/
def isSpace (c : Char) : Bool := c = ' ' || c = '\t' || c = '\n' || c = '\r'

/-- The characters from the first on that is no blank. -/
def skip (cs : List Char) : List Char := cs.dropWhile isSpace

/-- The words that stand for values. -/
def keywords : List (List Char × Value) :=
  [("null".toList, .null), ("true".toList, .bool true), ("false".toList, .bool false),
    ("NaN".toList, .real .nan), ("Infinity".toList, .real (.infinite false)),
    ("-Infinity".toList, .real (.infinite true))]

/-- Reads a word that stands for a value. -/
def readKeyword? (cs : List Char) : Option (Value × List Char) :=
  keywords.findSome? fun (word, value) => (word.isPrefixOf? cs).map (value, ·)

/-! ## Numbers -/

/-- Splits off the leading ASCII digits. -/
def takeDigits (cs : List Char) : List Char × List Char := cs.span Char.isDigit

/-- The digits before the point: a single zero, or digits that do not start with one. -/
def readWhole? : List Char → Option (List Char × List Char)
  | '0' :: rest => some (['0'], rest)
  | cs => match takeDigits cs with
    | ([], _) => none
    | split => some split

/-- The digits behind a point, if there are any. -/
def readFraction : List Char → Option (List Char) × List Char
  | '.' :: rest => match takeDigits rest with
    | ([], _) => (none, '.' :: rest)
    | (digits, after) => (some digits, after)
  | cs => (none, cs)

/-- A decimal exponent, if there is a complete one. -/
def readExponent : List Char → Option Int × List Char
  | [] => (none, [])
  | e :: rest =>
    if e = 'e' || e = 'E' then
      let (negative, rest') := match rest with
        | '+' :: r => (false, r)
        | '-' :: r => (true, r)
        | r => (false, r)
      match takeDigits rest' with
      | ([], _) => (none, e :: rest)
      | (digits, after) =>
        (some (Binary64.signed negative (Text.digitsValue digits)), after)
    else (none, e :: rest)

/-- Reads a number: whole without point and exponent, otherwise double precision. -/
def readNumber (cs : List Char) : Except Stop (Value × List Char) :=
  let (negative, body) := match cs with
    | '-' :: rest => (true, rest)
    | rest => (false, rest)
  match readWhole? body with
  | none => stopAt .value cs
  | some (whole, rest) =>
    let (fraction, rest) := readFraction rest
    let (exponent, rest) := readExponent rest
    if fraction.isNone && exponent.isNone then
      if Numeral.maxDigits < whole.length then .error (.longNumber whole.length)
      else .ok (.int (Binary64.signed negative (Text.digitsValue whole)), rest)
    else
      let behind := fraction.getD []
      let scale := exponent.getD 0 - (behind.length : Int)
      .ok (.real (.ofDecimal negative (Text.digitsValue (whole ++ behind)) scale), rest)

/-! ## Texts -/

/-- The value of a hexadecimal digit. -/
def hexValue? (c : Char) : Option Nat :=
  let n := c.toNat
  if 0x30 ≤ n && n ≤ 0x39 then some (n - 0x30)
  else if 0x61 ≤ n && n ≤ 0x66 then some (n - 0x57)
  else if 0x41 ≤ n && n ≤ 0x46 then some (n - 0x37)
  else none

/-- The sixteen-bit unit that four hexadecimal digits spell. -/
def unitValue? (a b c d : Char) : Option Nat := do
  let a ← hexValue? a
  let b ← hexValue? b
  let c ← hexValue? c
  let d ← hexValue? d
  return ((a * 16 + b) * 16 + c) * 16 + d

/-- The character that an escape of one letter stands for. -/
def shortEscape? (c : Char) : Option Char :=
  if c = '"' || c = '\\' || c = '/' then some c
  else if c = 'b' then some '\x08'
  else if c = 'f' then some '\x0c'
  else if c = 'n' then some '\n'
  else if c = 'r' then some '\r'
  else if c = 't' then some '\t'
  else none

/-- Whether a unit opens a pair. -/
def isHighUnit (n : Nat) : Bool := 0xd800 ≤ n && n ≤ 0xdbff

/-- Whether a unit closes a pair. -/
def isLowUnit (n : Nat) : Bool := 0xdc00 ≤ n && n ≤ 0xdfff

/-- The character of a pair of units. -/
def pairChar (high low : Nat) : Char :=
  Char.ofNat (0x10000 + (high - 0xd800) * 0x400 + (low - 0xdc00))

/-- The character of a unit on its own; half a pair becomes the replacement character. -/
def unitChar (n : Nat) : Char :=
  if isHighUnit n || isLowUnit n then '\ufffd' else Char.ofNat n

/-- What comes next inside a text: its end, or a character. -/
inductive Next where
  | close (rest : List Char)
  | char (c : Char) (rest : List Char)

/-- The character of four hexadecimal digits with `tail` behind them. A pair of escapes is read
together; something has to follow the second one. -/
def readUnit (high : Nat) (tail : List Char) : Except Stop Next :=
  match tail with
  | '\\' :: 'u' :: e :: f :: g :: h :: after :: rest =>
    if isHighUnit high then
      match unitValue? e f g h with
      | none => .error (.malformed .unitEscape (rest.length + 6))
      | some low =>
        if isLowUnit low then .ok (.char (pairChar high low) (after :: rest))
        else .ok (.char (unitChar high) tail)
    else .ok (.char (unitChar high) tail)
  | _ => .ok (.char (unitChar high) tail)

/-- Reads one character of a text; `start` is the number of characters left at the opening quote.
An escape of four hexadecimal digits has to be followed by something. -/
def readNext (start : Nat) : List Char → Except Stop Next
  | [] => .error (.malformed .openText start)
  | '"' :: rest => .ok (.close rest)
  | '\\' :: 'u' :: a :: b :: c :: d :: next :: rest =>
    match unitValue? a b c d with
    | none => .error (.malformed .unitEscape (rest.length + 6))
    | some high => readUnit high (next :: rest)
  | '\\' :: 'u' :: rest => .error (.malformed .unitEscape (rest.length + 1))
  | '\\' :: e :: rest =>
    match shortEscape? e with
    | some c => .ok (.char c rest)
    | none => .error (.malformed .escape (rest.length + 2))
  | ['\\'] => .error (.malformed .openText start)
  | c :: rest =>
    if c.toNat < 0x20 then .error (.malformed .controlCharacter (rest.length + 1))
    else .ok (.char c rest)

/-- Reads the characters of a text up to the closing quote, `fuel` of them at most. -/
def readChars (start : Nat) : Nat → List Char → Except Stop (List Char × List Char)
  | 0, _ => .error (.malformed .openText start)
  | fuel + 1, cs => do
    match ← readNext start cs with
    | .close rest => return ([], rest)
    | .char c rest =>
      let (chars, rest) ← readChars start fuel rest
      return (c :: chars, rest)

/-- Reads a text behind its opening quote. -/
def readText (cs : List Char) : Except Stop (String × List Char) :=
  (readChars (cs.length + 1) (cs.length + 1) cs).map fun (chars, rest) =>
    (String.ofList chars, rest)

/-! ## Values -/

mutual

/-- Reads a value. The first argument bounds the steps; two for each character are enough. -/
def readValue : Nat → List Char → Except Stop (Value × List Char)
  | 0, cs => stopAt .value cs
  | fuel + 1, cs =>
    match cs with
    | '"' :: rest => (readText rest).map fun (s, rest) => (.text s, rest)
    | '[' :: rest =>
      match skip rest with
      | ']' :: rest => .ok (.list [], rest)
      | rest => (readItems fuel rest).map fun (items, rest) => (.list items, rest)
    | '\x7b' :: rest =>
      match skip rest with
      | '\x7d' :: rest => .ok (.object [], rest)
      | rest =>
        (readFields fuel rest).map fun (entries, rest) => (.object (Fields.ofEntries entries), rest)
    | cs =>
      match readKeyword? cs with
      | some found => .ok found
      | none => readNumber cs

/-- Reads the items of a list up to the closing bracket. -/
def readItems : Nat → List Char → Except Stop (List Value × List Char)
  | 0, cs => stopAt .value cs
  | fuel + 1, cs => do
    let (v, rest) ← readValue fuel cs
    match skip rest with
    | ']' :: rest => .ok ([v], rest)
    | ',' :: rest =>
      let (vs, rest) ← readItems fuel (skip rest)
      .ok (v :: vs, rest)
    | rest => stopAt .comma rest

/-- Reads the fields of an object up to the closing brace. -/
def readFields : Nat → List Char → Except Stop (List (String × Value) × List Char)
  | 0, cs => stopAt .value cs
  | fuel + 1, cs =>
    match cs with
    | '"' :: rest => do
      let (name, rest) ← readText rest
      match skip rest with
      | ':' :: rest =>
        let (v, rest) ← readValue fuel (skip rest)
        match skip rest with
        | '\x7d' :: rest => .ok ([(name, v)], rest)
        | ',' :: rest =>
          let (more, rest) ← readFields fuel (skip rest)
          .ok ((name, v) :: more, rest)
        | rest => stopAt .comma rest
      | rest => stopAt .colon rest
    | cs => stopAt .fieldName cs

end

/-- Reads a whole text. -/
def readAll (cs : List Char) : Except Stop Value :=
  match cs with
  | '\ufeff' :: _ => stopAt .byteOrderMark cs
  | _ => do
    let (v, rest) ← readValue (2 * cs.length + 2) (skip cs)
    match skip rest with
    | [] => .ok v
    | rest => stopAt .extraData rest

/-! ## Places -/

/-- A place in a text: line and column count from one, the offset from zero. -/
structure Place where
  line : Nat
  column : Nat
  offset : Nat
deriving DecidableEq, Repr

/-- The place where `left` characters are still to come. -/
def placeOf (cs : List Char) (left : Nat) : Place :=
  let before := cs.take (cs.length - left)
  ⟨before.count '\n' + 1, (before.reverse.takeWhile (· ≠ '\n')).length + 1, before.length⟩

/-- Why a text is refused. -/
inductive Refusal where
  | malformed (problem : Problem) (place : Place)
  | longNumber (digits : Nat)
deriving DecidableEq, Repr

/-- Reads a JSON text. -/
def parse (s : String) : Except Refusal Value :=
  match readAll s.toList with
  | .ok v => .ok v
  | .error (.malformed problem left) => .error (.malformed problem (placeOf s.toList left))
  | .error (.longNumber digits) => .error (.longNumber digits)

end Flowscript.Json
