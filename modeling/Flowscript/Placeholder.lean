-- Placeholders. A template holds dotted paths between double braces or
-- between a dollar brace and a brace; resolving replaces each path that leads
-- to a value and keeps the others as written. Replaced text is never looked
-- at again.
import Flowscript.Json.Printer
import Flowscript.Text.Blank
import Flowscript.Value.Number

namespace Flowscript.Placeholder

/-! ## Templates -/

/-- How a placeholder is written: with two braces on each side, or with a dollar sign and
braces. -/
inductive Style where
  | braces
  | dollar
deriving DecidableEq, Repr

/-- What opens a placeholder. -/
def Style.opening : Style → List Char
  | .braces => ['\x7b', '\x7b']
  | .dollar => ['$', '\x7b']

/-- What closes a placeholder. -/
def Style.closing : Style → List Char
  | .braces => ['\x7d', '\x7d']
  | .dollar => ['\x7d']

/-- A placeholder as it stands in a template. -/
structure Hole where
  style : Style
  inner : List Char
deriving DecidableEq, Repr

/-- The characters of a placeholder. -/
def Hole.written (h : Hole) : List Char := h.style.opening ++ h.inner ++ h.style.closing

/-- The path that a placeholder names. -/
def Hole.path (h : Hole) : List Char := Text.stripChars Text.isBlank h.inner

/-- Whether a character is a brace. -/
def isBrace (c : Char) : Bool := c = '\x7b' || c = '\x7d'

/-- The placeholder of the given style at the start of `cs`, with what follows it. Its inside is
not empty and holds no brace. -/
def holeOf? (style : Style) (cs : List Char) : Option (Hole × List Char) := do
  let body ← style.opening.isPrefixOf? cs
  let inner := body.takeWhile (!isBrace ·)
  if inner.isEmpty then none
  else
    let rest ← style.closing.isPrefixOf? (body.dropWhile (!isBrace ·))
    return (⟨style, inner⟩, rest)

/-- The placeholder at the start of `cs`, with what follows it. -/
def hole? (cs : List Char) : Option (Hole × List Char) :=
  holeOf? .braces cs <|> holeOf? .dollar cs

/-- A piece of a template. -/
inductive Piece where
  | char (c : Char)
  | hole (h : Hole)
deriving DecidableEq, Repr

/-- The characters of a piece. -/
def Piece.written : Piece → List Char
  | .char c => [c]
  | .hole h => h.written

/-- The pieces of a template from left to right, after `skip` characters that belong to a
placeholder already found. -/
def piecesFrom : Nat → List Char → List Piece
  | _, [] => []
  | skip + 1, _ :: cs => piecesFrom skip cs
  | 0, c :: cs =>
    match hole? (c :: cs) with
    | some (h, _) => .hole h :: piecesFrom (h.written.length - 1) cs
    | none => .char c :: piecesFrom 0 cs

/-- The pieces of a template: the leftmost placeholders, and the characters between them. -/
def pieces (cs : List Char) : List Piece := piecesFrom 0 cs

/-- Whether a text holds a placeholder. -/
def occursIn (s : String) : Bool :=
  (pieces s.toList).any fun
    | .hole _ => true
    | .char _ => false

/-- The placeholder that makes up a whole text, apart from blanks around it. -/
def whole? (s : String) : Option Hole :=
  match hole? (s.toList.dropWhile Text.isBlank) with
  | some (h, rest) => if rest.all Text.isBlank then some h else none
  | none => none

/-! ## Paths -/

/-- The value below one name or position. A list takes a position in decimal digits. -/
def child (v : Value) (part : String) : Except NumberFault (Option Value) :=
  match v with
  | .object fields => .ok (Fields.get? fields part)
  | .list items =>
    if part ≠ "" && part.toList.all Text.isDecimal then do
      let position ← wholeOfText part
      return items[position.toNat]?
    else .ok none
  | _ => .ok none

/-- The value that a sequence of names and positions leads to. -/
def walk (v : Value) : List String → Except NumberFault (Option Value)
  | [] => .ok (some v)
  | part :: rest => do
    match ← child v part with
    | some below => walk below rest
    | none => return none

/-- The value that a dotted path leads to. -/
def lookup (values : Value) (path : String) : Except NumberFault (Option Value) :=
  walk values (Text.splitAt '.' path)

/-! ## Resolving -/

/-- How a value reads inside a text: a text as it is, anything else as JSON without blanks. -/
def format : Value → String
  | .text s => s
  | v => Json.write Json.compact v

/-- Writes a value into a text, unless it cannot be printed. -/
def write (v : Value) : Except NumberFault String :=
  if v.isPrintable then .ok (format v) else .error .tooWide

/-- What a placeholder becomes. -/
def fillHole (values : Value) (h : Hole) : Except NumberFault (List Char) :=
  if h.path.isEmpty then .ok h.written
  else do
    match ← lookup values (String.ofList h.path) with
    | some v => return (← write v).toList
    | none => return h.written

/-- What a piece becomes. -/
def fillPiece (values : Value) : Piece → Except NumberFault (List Char)
  | .char c => .ok [c]
  | .hole h => fillHole values h

/-- What a list of pieces becomes. -/
def fillPieces (values : Value) : List Piece → Except NumberFault (List Char)
  | [] => .ok []
  | p :: rest => do
    let here ← fillPiece values p
    let after ← fillPieces values rest
    return here ++ after

/-- The template with its placeholders resolved. -/
def resolve (template : String) (values : Value) : Except NumberFault String :=
  (fillPieces values (pieces template.toList)).map String.ofList

mutual

/-- Resolves every text inside a value; the names of fields are left alone. -/
def resolveValue (values : Value) : Value → Except NumberFault Value
  | .text s => (resolve s values).map .text
  | .list items => (resolveItems values items).map .list
  | .object fields => (resolveFields values fields).map .object
  | v => .ok v

/-- Resolves every text inside the items of a list. -/
def resolveItems (values : Value) : List Value → Except NumberFault (List Value)
  | [] => .ok []
  | v :: rest => do
    let w ← resolveValue values v
    let ws ← resolveItems values rest
    return w :: ws

/-- Resolves every text inside the fields of an object. -/
def resolveFields (values : Value) : List (String × Value) → Except NumberFault Fields
  | [] => .ok []
  | (k, v) :: rest => do
    let w ← resolveValue values v
    let ws ← resolveFields values rest
    return (k, w) :: ws

end

end Flowscript.Placeholder
