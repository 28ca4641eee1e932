-- Text inside a comment of the generated code: one line, single spaces
-- between words, and nothing that closes the comment.
import Flowscript.Text.Blank

namespace Flowscript.Text

/-- Parts the two characters that would close a comment. -/
def partClosers : List Char → List Char
  | '*' :: '/' :: rest => '*' :: ' ' :: '/' :: partClosers rest
  | c :: rest => c :: partClosers rest
  | [] => []

/-- The text as it may stand in a comment. -/
def remark (s : String) : String :=
  String.ofList (partClosers (joinWith " " (words s)).toList)

end Flowscript.Text
