-- Sheets of code. A sheet is a list of indented lines with open slots between
-- them; filling a kind of slot puts lines in the place of every slot of that
-- kind, at the slot's own indent.
import Flowscript.Code.Line

namespace Flowscript

/-! ## Slots -/

/-- What may be put into a slot. -/
inductive SlotKind where
  | auth
  | error
  | rateLimit
  | dedup
deriving DecidableEq, Repr

namespace SlotKind

/-- All kinds, in the order in which they are filled. -/
def all : List SlotKind := [auth, error, rateLimit, dedup]

/-- The name of a kind. -/
def name : SlotKind → String
  | .auth => "auth"
  | .error => "error"
  | .rateLimit => "rateLimit"
  | .dedup => "dedup"

/-- The comment that stands for an open slot. -/
def marker : SlotKind → String
  | .auth => "// \x7b\x7bAUTH_CODE\x7d\x7d"
  | .error => "// \x7b\x7bERROR_HANDLING\x7d\x7d"
  | .rateLimit => "// \x7b\x7bRATE_LIMITING\x7d\x7d"
  | .dedup => "// \x7b\x7bDEDUPLICATION\x7d\x7d"

/-- The kind of a name. -/
def ofName? (s : String) : Option SlotKind := all.find? fun k => k.name == s

end SlotKind

/-! ## Items -/

/-- A line or an open slot, with its indent. -/
inductive Item where
  | line (indent : Int) (text : String)
  | slot (indent : Int) (kind : SlotKind)
deriving DecidableEq, Repr

/-- The blanks of an indent; an indent below zero has none. -/
def margin (indent : Int) : String := String.ofList (List.replicate (2 * indent.toNat) ' ')

namespace Item

/-- A line, where an empty one has no indent. -/
def ofText (indent : Int) (text : String) : Item := .line (if text = "" then 0 else indent) text

/-- Whether the item is a slot of the given kind. -/
def isSlot (kind : SlotKind) : Item → Bool
  | .slot _ k => k == kind
  | .line .. => false

/-- The item moved by `amount`, where an empty line stays. -/
def shift (amount : Int) : Item → Item
  | .slot indent kind => .slot (indent + amount) kind
  | .line indent text => .line (if text = "" then indent else indent + amount) text

/-- The item with a slot of the given kind replaced by lines. -/
def fill (kind : SlotKind) (lines : List String) : Item → List Item
  | .slot indent k => if k = kind then lines.map (ofText indent) else [.slot indent k]
  | .line indent text => [.line indent text]

/-- The printed lines of an item; an open slot prints its marker or nothing. -/
def print (markers : Bool) : Item → List String
  | .slot indent kind => if markers then [margin indent ++ kind.marker] else []
  | .line indent text => [if text = "" then "" else margin indent ++ text]

end Item

/-! ## Sheets -/

/-- Items, and the indent at which writing goes on. -/
structure Sheet where
  items : List Item
  indent : Int
deriving DecidableEq, Repr

/-- A step of writing. -/
inductive Step where
  | line (parts : List Part)
  | slot (kind : SlotKind)
  | deeper
  | back

/-- Whether what a step writes can be printed. -/
def Step.isPrintable : Step → Bool
  | .line parts => parts.all Part.isPrintable
  | _ => true

namespace Sheet

/-- An empty sheet. -/
def empty (indent : Int) : Sheet := ⟨[], indent⟩

/-- Adds items at the end. -/
def add (s : Sheet) (items : List Item) : Sheet := { s with items := s.items ++ items }

/-- Adds a line. -/
def write (s : Sheet) (text : String) : Sheet := s.add [.ofText s.indent text]

/-- Adds lines. -/
def writeAll (s : Sheet) (lines : List String) : Sheet := s.add (lines.map (.ofText s.indent))

/-- Adds a comment. -/
def remark (s : Sheet) (text : String) : Sheet := s.write ("// " ++ text)

/-- Adds the lines of a text, which keep their own leading blanks. -/
def writeBlock (s : Sheet) (text : String) : Sheet := s.writeAll (Text.lines text)

/-- Adds an open slot. -/
def leaveSlot (s : Sheet) (kind : SlotKind) : Sheet := s.add [.slot s.indent kind]

/-- Goes one level deeper. -/
def deeper (s : Sheet) : Sheet := { s with indent := s.indent + 1 }

/-- Goes one level back, but not below zero. -/
def back (s : Sheet) : Sheet := { s with indent := max 0 (s.indent - 1) }

/-- Adds the items of another sheet, moved to the indent of this one. -/
def attach (s other : Sheet) : Sheet := s.add (other.items.map (.shift s.indent))

/-- Does one step of writing. -/
def take (s : Sheet) : Step → Sheet
  | .line parts => s.write (lineCode parts)
  | .slot kind => s.leaveSlot kind
  | .deeper => s.deeper
  | .back => s.back

/-- Does steps of writing in order. -/
def takeAll (s : Sheet) (steps : List Step) : Sheet := steps.foldl take s

/-- Whether a slot of the kind is open. -/
def hasSlot (s : Sheet) (kind : SlotKind) : Bool := s.items.any (·.isSlot kind)

/-- The kinds of the open slots, in order. -/
def slotKinds (s : Sheet) : List SlotKind :=
  s.items.filterMap fun
    | .slot _ kind => some kind
    | .line .. => none

/-- Fills every slot of a kind. -/
def fill (s : Sheet) (kind : SlotKind) (lines : List String) : Sheet :=
  { s with items := s.items.flatMap (·.fill kind lines) }

/-- The printed lines; open slots print their markers or nothing. -/
def lines (s : Sheet) (markers : Bool) : List String := s.items.flatMap (·.print markers)

/-- The printed text. -/
def render (s : Sheet) (markers : Bool) : String := Text.joinLines (s.lines markers)

end Sheet

end Flowscript
