-- JSON text of a value. The text holds only printable ASCII characters;
-- fields keep their order, and a layout says what stands between the items of
-- a list and behind the name of a field. Every value has a text; whether it
-- can be printed is asked where it is printed.
import Flowscript.Number.Shortest
import Flowscript.Text.Blank
import Flowscript.Text.Quoted
import Flowscript.Value.Basic

namespace Flowscript.Json

/-- What stands between items and behind field names. -/
structure Layout where
  item : String
  field : String

/-- A blank behind each comma and each colon. -/
def spaced : Layout := ⟨", ", ": "⟩

/-- No blanks at all. -/
def compact : Layout := ⟨",", ":"⟩

/-- A sixteen-bit unit as an escape. -/
def unitEscape (n : Nat) : List Char := '\\' :: 'u' :: Text.hexDigits 4 n

/-- One character of a text between double quotes. -/
def escapeChar (c : Char) : List Char :=
  if c = '"' then ['\\', '"']
  else if c = '\\' then ['\\', '\\']
  else if c = '\n' then ['\\', 'n']
  else if c = '\r' then ['\\', 'r']
  else if c = '\t' then ['\\', 't']
  else if c = '\x08' then ['\\', 'b']
  else if c = '\x0c' then ['\\', 'f']
  else if 0x20 ≤ c.toNat && c.toNat < 0x7f then [c]
  else if c.toNat < 0x10000 then unitEscape c.toNat
  else
    let n := c.toNat - 0x10000
    unitEscape (0xd800 + n / 0x400) ++ unitEscape (0xdc00 + n % 0x400)

/-- A text between double quotes. -/
def quote (s : String) : String :=
  String.ofList ('"' :: s.toList.flatMap escapeChar ++ ['"'])

mutual

/-- The JSON text of a value. -/
def write (layout : Layout) : Value → String
  | .null => "null"
  | .bool true => "true"
  | .bool false => "false"
  | .int n => toString n
  | .real x => x.text Binary64.literalSpelling
  | .text s => quote s
  | .list items => "[" ++ Text.joinWith layout.item (writeItems layout items) ++ "]"
  | .object fields => "\x7b" ++ Text.joinWith layout.item (writeFields layout fields) ++ "\x7d"

/-- The JSON texts of the items of a list. -/
def writeItems (layout : Layout) : List Value → List String
  | [] => []
  | v :: rest => write layout v :: writeItems layout rest

/-- The JSON texts of the fields of an object. -/
def writeFields (layout : Layout) : List (String × Value) → List String
  | [] => []
  | (k, v) :: rest => (quote k ++ layout.field ++ write layout v) :: writeFields layout rest

end

/-- The literal that stands for a value in generated code. -/
def literal (v : Value) : String := write spaced v

end Flowscript.Json
