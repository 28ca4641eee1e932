-- The file that installs and removes the triggers of a workflow, and that
-- answers requests where the workflow has a webhook.
import Flowscript.Script.Entry
import Flowscript.Trigger.Schedule

namespace Flowscript.Installer

open Recipe (code remark)

/-- The name of the file. -/
def fileName : String := "Triggers.js"

/-- The minutes between two polls where none are set, or no number. -/
def defaultMinutes : Int := 5

/-- Whether a type tag is that of a trigger, known or not. -/
def isTriggerTag (tag : String) : Bool := "trigger.".toList.isPrefixOf tag.toList

/-- The minutes between two polls of a node. -/
def pollingMinutes (n : PlannedNode) : Traced Int :=
  let raw := (n.config.get? "pollingInterval").getD (.int defaultMinutes)
  match raw.toWhole with
  | .ok minutes => return Interval.snapMinutes minutes
  | .error .infinite => Traced.fail (.number .infinite)
  | .error _ => do
    raw.requirePrintable
    Traced.note .warning
      s!"Node '{n.id}': invalid pollingInterval {raw.shown}, using {defaultMinutes}"
    return Interval.snapMinutes defaultMinutes

/-- The statement that makes a clock trigger. -/
def clockLine (chain : String) : String :=
  "ScriptApp.newTrigger(" ++ Json.quote Entry.functionName ++ ").timeBased()." ++ chain ++
    ".create();"

/-- The schedule that a node asks for. -/
def scheduleOf (config : Fields) : Value :=
  ((config.get? "schedule").getD .null).orElse
    (((config.get? "cron").getD .null).orElse (.text "@daily"))

/-- What is remarked on a clock: the schedule as it is set, and a note on how it was read. -/
def clockRemarks (n : PlannedNode) (found : Schedule) : List String :=
  s!"{Text.remark n.id}: time trigger ({Text.remark (scheduleOf n.config).plain})" ::
    found.note.toList.map Text.remark

/-- The steps for a clock whose schedule was found. -/
def clockSteps (n : PlannedNode) (found : Schedule) : List Step :=
  (clockRemarks n found).map remark ++ code [clockLine found.timing.chain]

/-- The steps for a trigger that polls. -/
def pollingSteps (n : PlannedNode) (source : String) : Traced (List Step) := do
  let minutes ← pollingMinutes n
  return [remark s!"{Text.remark n.id}: {source} polling every {minutes} minute(s)"] ++
    code [clockLine (Timing.everyMinutes minutes).chain]

/-- The steps that install the trigger of a node. -/
def installSteps (n : PlannedNode) : Traced (List Step) :=
  match n.kind? with
  | some .timeTrigger => do
    let raw ← (scheduleOf n.config).print
    let found ← Schedule.ofText raw
    return clockSteps n found
  | some .gmailTrigger => pollingSteps n "Gmail"
  | some .sheetsTrigger => pollingSteps n "Sheets"
  | some .webhookTrigger =>
    return [remark s!"{Text.remark n.id}: webhook trigger"] ++
      code ["Logger.log('Webhook trigger configured: deploy as a web app to activate');"]
  | _ => return [remark s!"{Text.remark n.id}: no installable trigger for {Text.remark n.tag}"]

/-- The function that installs all triggers, from the steps of each. -/
def installFunction (each : List (List Step)) : List Step :=
  code [
    "/**",
    " * Install all triggers for this workflow.  Safe to run repeatedly.",
    " */",
    "function installTriggers() \x7b"] ++ [.deeper] ++
  code ["deleteTriggers();"] ++
  each.flatMap (fun steps => code [""] ++ steps) ++
  code ["", "Logger.log('All triggers installed successfully');"] ++ [.back] ++
  code ["\x7d"]

/-- The function that removes all triggers. -/
def deleteFunction : List Step :=
  code [
    "/**",
    " * Remove every trigger that runs this workflow.",
    " */",
    "function deleteTriggers() \x7b"] ++ [.deeper] ++
  code [
    "ScriptApp.getProjectTriggers().forEach(function (trigger) \x7b",
    "  if (trigger.getHandlerFunction() === " ++ Json.quote Entry.functionName ++ ") \x7b",
    "    ScriptApp.deleteTrigger(trigger);",
    "  \x7d",
    "\x7d);"] ++ [.back] ++
  code ["\x7d"]

/-- The functions that answer requests. -/
def webhookFunctions : List Step :=
  code [
    "/**",
    " * Run the workflow for an inbound request and answer with JSON.",
    " */",
    "function handleWebhookRequest(triggerData) \x7b"] ++ [.deeper] ++
  code ["let payload;", "try \x7b"] ++ [.deeper] ++
  code [
    "const result = " ++ Entry.functionName ++ "(triggerData);",
    "payload = \x7b success: true, results: result.results, correlationId: result.correlationId \x7d;"
    ] ++ [.back] ++
  code ["\x7d catch (error) \x7b"] ++ [.deeper] ++
  code [
    "Logger.log('Webhook execution failed: ' + error.toString());",
    "payload = \x7b success: false, error: error.toString() \x7d;"] ++ [.back] ++
  code [
    "\x7d",
    "return ContentService",
    "  .createTextOutput(JSON.stringify(payload))",
    "  .setMimeType(ContentService.MimeType.JSON);"] ++ [.back] ++
  code ["\x7d", "", "function doPost(e) \x7b"] ++ [.deeper] ++
  code [
    "e = e || \x7b\x7d;",
    "const contents = e.postData ? e.postData.contents : '';",
    "return handleWebhookRequest(\x7b",
    "  method: 'POST',",
    "  headers: \x7b\x7d,",
    "  body: contents ? safeJsonParse(contents, contents) : \x7b\x7d,",
    "  query: e.parameter || \x7b\x7d",
    "\x7d);"] ++ [.back] ++
  code ["\x7d", "", "function doGet(e) \x7b"] ++ [.deeper] ++
  code [
    "e = e || \x7b\x7d;",
    "return handleWebhookRequest(\x7b",
    "  method: 'GET',",
    "  headers: \x7b\x7d,",
    "  body: \x7b\x7d,",
    "  query: e.parameter || \x7b\x7d",
    "\x7d);"] ++ [.back] ++
  code ["\x7d"]

/-- The comment at the top of the file. -/
def header (p : Plan) : List Step := code [
  "/**",
  " * Trigger setup and management",
  " * Workflow: " ++ Text.remark p.graph.displayName,
  " */",
  ""]

/-- The text of the file, if the workflow has triggers. -/
def text? (p : Plan) : Traced (Option String) :=
  let triggers := p.nodes.filter fun n => isTriggerTag n.tag
  if triggers.isEmpty then return none
  else do
    let each ← Traced.forEach installSteps triggers
    let webhook := triggers.any fun n => n.kind? == some .webhookTrigger
    let steps := header p ++ installFunction each ++ code [""] ++ deleteFunction ++
      if webhook then code [""] ++ webhookFunctions else []
    return some (((Sheet.empty 0).takeAll steps).render false ++ "\n")

end Flowscript.Installer
