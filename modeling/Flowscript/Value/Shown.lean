-- Values as they are shown in messages and comments. Inside lists and objects
-- texts are quoted; a text on its own is shown as it is. Every value has its
-- forms; whether they can be printed is asked where they are printed.
import Flowscript.Number.Shortest
import Flowscript.Text.Blank
import Flowscript.Text.Quoted
import Flowscript.Value.Basic

namespace Flowscript.Value

mutual

/-- The quoted form of a value. -/
def shown : Value → String
  | .null => "None"
  | .bool true => "True"
  | .bool false => "False"
  | .int n => toString n
  | .real x => x.text Binary64.plainSpelling
  | .text s => Text.quoted s
  | .list items => "[" ++ Text.joinWith ", " (shownItems items) ++ "]"
  | .object fields => "\x7b" ++ Text.joinWith ", " (shownFields fields) ++ "\x7d"

/-- The quoted forms of the items of a list. -/
def shownItems : List Value → List String
  | [] => []
  | v :: rest => shown v :: shownItems rest

/-- The quoted forms of the fields of an object. -/
def shownFields : List (String × Value) → List String
  | [] => []
  | (k, v) :: rest => (Text.quoted k ++ ": " ++ shown v) :: shownFields rest

end

/-- The plain form of a value: a text stands for itself. -/
def plain : Value → String
  | .text s => s
  | v => v.shown

end Flowscript.Value
