-- The function of a node: a comment, the body of its recipe, and the snippets
-- that fill the slots of the body.
import Flowscript.Connector.Snippet
import Flowscript.Recipe.Table
import Flowscript.Text.Remark

namespace Flowscript.NodeFunction

/-- The comment and the opening line of a node's function. -/
def opening (n : PlannedNode) : List String := [
  "/**",
  " * Node: " ++ Text.remark n.id,
  " * Type: " ++ Text.remark n.tag,
  " * " ++ Text.remark (n.description.getD "No description"),
  " */",
  "function " ++ n.functionName ++ "(context) \x7b"]

/-- The function with its slots still open. The description is printed first. -/
def draft (n : PlannedNode) (c : Choices) : Traced Sheet := do
  ((n.config.get? "description").getD .null).requirePrintable
  let body ← n.recipe.body n c
  return (Sheet.empty 0).takeAll
    (Recipe.code (opening n) ++ [.deeper] ++ body ++ [.back] ++ Recipe.code ["\x7d"])

/-- The function with every slot filled. -/
def build (n : PlannedNode) (c : Choices) : Traced Sheet := do
  let sheet ← draft n c
  let facts ← n.recipe.facts n c
  let (filled, kinds) ← Snippet.intoSheetAll sheet facts SlotKind.all
  if kinds.isEmpty then return filled
  else do
    let names := Text.joinWith ", " (kinds.map SlotKind.name)
    Traced.note .debug s!"Node '{n.id}': injected {names}"
    return filled

/-- The text of the function. -/
def text (n : PlannedNode) (c : Choices) : Traced String := do
  let sheet ← build n c
  return sheet.render false

end Flowscript.NodeFunction
