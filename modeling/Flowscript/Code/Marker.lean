-- Filling slots in printed text. A line that holds nothing but a marker
-- stands for an open slot; it is replaced by the lines of a snippet, at the
-- marker's own margin.
import Flowscript.Code.Sheet

namespace Flowscript.Marker

/-- The blanks that may stand beside a marker. -/
def isMargin (c : Char) : Bool := c = ' ' || c = '\t'

/-- The margin of a marker line, none for any other line. -/
def margin? (kind : SlotKind) (line : List Char) : Option (List Char) :=
  match kind.marker.toList.isPrefixOf? (line.dropWhile isMargin) with
  | some rest => if rest.all isMargin then some (line.takeWhile isMargin) else none
  | none => none

/-- Whether a text has a marker line of the kind. -/
def occursIn (kind : SlotKind) (code : String) : Bool :=
  (Text.cutAt '\n' code.toList).any fun line => (margin? kind line).isSome

/-- What a line becomes. -/
def fillLine (kind : SlotKind) (lines : List String) (line : List Char) : List String :=
  match margin? kind line with
  | some m => lines.map fun l => if l = "" then "" else String.ofList m ++ l
  | none => [String.ofList line]

/-- The text with every marker line of the kind replaced. -/
def fill (kind : SlotKind) (lines : List String) (code : String) : String :=
  Text.joinLines ((Text.cutAt '\n' code.toList).flatMap (fillLine kind lines))

end Flowscript.Marker
