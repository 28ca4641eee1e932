-- Which recipe a node has.
import Flowscript.Recipe.Logic
import Flowscript.Recipe.Remote
import Flowscript.Recipe.Trigger
import Flowscript.Recipe.Workspace

namespace Flowscript

/-- The recipe of a kind. -/
def Kind.recipe : Kind → Recipe
  | .timeTrigger => Recipe.timeTrigger
  | .webhookTrigger => Recipe.webhookTrigger
  | .gmailTrigger => Recipe.gmailTrigger
  | .sheetsTrigger => Recipe.sheetsTrigger
  | .gmailSend => Recipe.gmailSend
  | .gmailRead => Recipe.gmailRead
  | .sheetsAppend => Recipe.sheetsAppend
  | .sheetsRead => Recipe.sheetsRead
  | .driveCreate => Recipe.driveCreate
  | .httpRequest => Recipe.httpRequest
  | .slackPost => Recipe.slackPost
  | .condition => Recipe.condition
  | .dataMapper => Recipe.dataMapper
  | .delay => Recipe.delay
  | .logger => Recipe.logger

/-- The recipe of a type tag. -/
def Recipe.ofTag (tag : String) : Recipe :=
  match Kind.ofTag? tag with
  | some k => k.recipe
  | none => Recipe.unknown

/-- The recipe of a planned node. -/
def PlannedNode.recipe (n : PlannedNode) : Recipe := Recipe.ofTag n.tag

end Flowscript
