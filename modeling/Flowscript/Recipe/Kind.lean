-- The closed set of node kinds that have a recipe of their own. Each kind is
-- named by its type tag.
import Flowscript.Graph.Basic

namespace Flowscript

/-- A kind of node. -/
inductive Kind where
  | timeTrigger
  | webhookTrigger
  | gmailTrigger
  | sheetsTrigger
  | gmailSend
  | gmailRead
  | sheetsAppend
  | sheetsRead
  | driveCreate
  | httpRequest
  | slackPost
  | condition
  | dataMapper
  | delay
  | logger
deriving DecidableEq, Repr

namespace Kind

/-- All kinds. -/
def all : List Kind :=
  [timeTrigger, webhookTrigger, gmailTrigger, sheetsTrigger, gmailSend, gmailRead, sheetsAppend,
    sheetsRead, driveCreate, httpRequest, slackPost, condition, dataMapper, delay, logger]

/-- The type tag of a kind. -/
def tag : Kind → String
  | .timeTrigger => "trigger.time.cron"
  | .webhookTrigger => "trigger.webhook"
  | .gmailTrigger => "trigger.gmail.new_email"
  | .sheetsTrigger => "trigger.sheets.row_added"
  | .gmailSend => "action.gmail.send"
  | .gmailRead => "action.gmail.read"
  | .sheetsAppend => "action.sheets.append"
  | .sheetsRead => "action.sheets.read"
  | .driveCreate => "action.drive.create_file"
  | .httpRequest => "action.http.request"
  | .slackPost => "action.slack.post_message"
  | .condition => "condition.if"
  | .dataMapper => "transform.data_mapper"
  | .delay => "utility.delay"
  | .logger => "utility.logger"

/-- The kind of a type tag. -/
def ofTag? (tag : String) : Option Kind := all.find? fun k => k.tag == tag

/-- The first segment of the kind's tag. -/
def category (k : Kind) : String := tagCategory k.tag

/-- Whether the kind starts a workflow. -/
def isTrigger (k : Kind) : Bool := k.category == "trigger"

/-- The tags of all kinds in ascending order. -/
def sortedTags : List String := (all.map tag).mergeSort fun a b => a ≤ b

/-- How many kinds each category has, in the order of their first kinds. -/
def categorySizes : List (String × Nat) :=
  (all.map category).eraseDups.map fun c => (c, (all.map category).count c)

end Kind

end Flowscript
