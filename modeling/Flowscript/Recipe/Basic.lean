-- Recipes. A recipe outlines the body of a node's function, which ends with a
-- result object of a fixed type and status, and gives the facts that the
-- body's slots are filled with.
import Flowscript.Code.Sheet
import Flowscript.Connector.Facts
import Flowscript.Journal
import Flowscript.Options
import Flowscript.PlannedNode
import Flowscript.Recipe.Config

namespace Flowscript

/-- What a recipe writes: steps, and the fields of the result between its type and its status. -/
structure Outline where
  steps : List Step
  fields : List (String × Part)

/-- A recipe for a kind of node. -/
structure Recipe where
  result : String
  status : String
  outline : PlannedNode → Choices → Traced Outline
  resultOf : PlannedNode → String := fun _ => result
  facts : PlannedNode → Choices → Except Fault Facts :=
    fun _ c => .ok { rateLimiting := c.includeRateLimiting }
  secrets : PlannedNode → Choices → Except Fault (List Value) := fun _ _ => .ok []

namespace Recipe

/-- Steps for lines of fixed code. -/
def code (lines : List String) : List Step := lines.map fun l => .line [.text l]

/-- The step for a comment. -/
def remark (text : String) : Step := .line ["// ", text]

/-- The step for a constant that holds an expression. -/
def constant (name : String) (e : Expr) : Step := .line ["const ", name, " = ", e, ";"]

/-- The steps of the result object: the type first, the status last. -/
def resultSteps (result status : String) (fields : List (String × Part)) : List Step :=
  code ["return \x7b"] ++ [.deeper, .line ["type: ", Expr.literal (.text result), ","]] ++
    fields.map (fun (name, value) => .line [name, ": ", value, ","]) ++
    [.line ["status: ", Expr.literal (.text status)], .back] ++ code ["\x7d;"]

/-- The steps of the body of a node's function, all of which can be printed. -/
def body (r : Recipe) (n : PlannedNode) (c : Choices) : Traced (List Step) := do
  let outline ← r.outline n c
  let steps := outline.steps ++ resultSteps (r.resultOf n) r.status outline.fields
  if steps.all Step.isPrintable then return steps else Traced.fail (.number .tooWide)

/-- The recipe that every other one starts from; it has no outline of its own. -/
def base : Recipe where
  result := "unknown"
  status := "completed"
  outline := fun _ _ => Traced.fail .noBody

/-- The steps that copy optional settings to fields of an object. -/
def optionalFields (config : Fields) (target : String) (keys : List (String × String)) :
    List Step :=
  keys.filterMap fun (key, name) => (Config.get? config key).map fun v =>
    .line [target, ".", name, " = ", Expr.ofText v, ";"]

/-- The code that opens a sheet by name, or the active one. -/
def openSheet : List Step := code [
  "let sheet;",
  "if (spreadsheetId) \x7b",
  "  const spreadsheet = SpreadsheetApp.openById(spreadsheetId);",
  "  sheet = spreadsheet.getSheetByName(sheetName) || spreadsheet.getActiveSheet();",
  "\x7d else \x7b",
  "  sheet = SpreadsheetApp.getActiveSheet();",
  "\x7d"]

end Recipe

end Flowscript
