-- The main file of a bundle: a header, the entry function that calls the
-- nodes in the order of the plan, and the function of each node in the order
-- of the graph.
import Flowscript.Moment
import Flowscript.Plan.Basic
import Flowscript.Script.NodeFunction

namespace Flowscript.Entry

open Recipe (code remark)

/-- The name of the entry function. -/
def functionName : String := "executeWorkflow"

/-- The script property with the address that hears of failures. -/
def emailProperty : String := "ERROR_NOTIFICATION_EMAIL"

/-- The header of the file. Only the eighth line depends on the clock. -/
def header (p : Plan) (started : Moment) : List String :=
  let orElse := fun (s : Option String) (other : String) =>
    match s with
    | some s => if s = "" then other else s
    | none => other
  [ "/**",
    " * " ++ Text.remark (orElse p.choices.projectName p.graph.displayName),
    " * " ++ Text.remark (orElse p.graph.description "No description"),
    " *",
    " * Workflow: " ++ Text.remark p.graph.displayName,
    " * Workflow ID: " ++ Text.remark (orElse (some p.graph.id) "n/a"),
    " * Version: " ++ Text.remark p.choices.version,
    " * Generated: " ++ started.text,
    " *",
    " * Produced by the scriptgraph compiler.",
    " * Do not edit by hand; recompile the workflow to regenerate.",
    " */",
    ""]

/-- Lines that tell how the run goes on, where logging is on. -/
def narration (c : Choices) (lines : List String) : List Step :=
  if c.includeLogging then code lines else []

/-- The statement that calls a node. -/
def callLine (n : PlannedNode) : String :=
  "context.results[" ++ Json.quote n.id ++ "] = " ++ n.functionName ++ "(context);"

/-- The call of a node with the line that tells of its end. -/
def callSteps (n : PlannedNode) (c : Choices) : List Step :=
  code [callLine n] ++ narration c ["Logger.log('Node completed: ' + " ++ Json.quote n.id ++ ");"]

/-- How the run goes on when a node has failed. -/
def aftermathSteps (n : PlannedNode) : List Step :=
  if n.continueOnError then [remark "continueOnError: carry on with the next node"]
  else [remark "continueOnError is false: abort the run"] ++ code ["throw nodeError;"]

/-- What happens when a node fails. -/
def failureSteps (n : PlannedNode) : List Step :=
  code [
    "Logger.log('Node failed: ' + " ++ Json.quote n.id ++ " + ' - ' + nodeError.toString());",
    "context.errors.push(\x7b",
    "  nodeId: " ++ Json.quote n.id ++ ",",
    "  error: nodeError.toString(),",
    "  timestamp: new Date()",
    "\x7d);"] ++
  aftermathSteps n

/-- The block of the entry function that belongs to a node. -/
def nodeSteps (n : PlannedNode) (c : Choices) : List Step :=
  [remark ("Node: " ++ Text.remark n.id ++ " (" ++ Text.remark n.tag ++ ")")] ++
  narration c ["Logger.log('Executing node: ' + " ++ Json.quote n.id ++ ");"] ++
  if c.includeErrorHandling then
    code ["try \x7b"] ++ [.deeper] ++ callSteps n c ++ [.back] ++
    code ["\x7d catch (nodeError) \x7b"] ++ [.deeper] ++ failureSteps n ++ [.back] ++ code ["\x7d"]
  else callSteps n c

/-- The mail that tells of a failed run. -/
def mailSteps (p : Plan) : List Step :=
  [remark "Operator notification"] ++
  code ["try \x7b"] ++ [.deeper] ++
  code [
    "const errorNotificationEmail = PropertiesService.getScriptProperties().getProperty(" ++
      Json.quote emailProperty ++ ");",
    "if (errorNotificationEmail) \x7b"] ++ [.deeper] ++
  code [
    "MailApp.sendEmail(\x7b",
    "  to: errorNotificationEmail,",
    "  subject: " ++ Json.quote ("Workflow Execution Failed: " ++ p.graph.displayName) ++ ",",
    "  body: 'Workflow execution failed at ' + new Date() + " ++ Json.quote "\n\nError: " ++
      " + error.toString() + " ++ Json.quote "\n\nStack: " ++ " + error.stack",
    "\x7d);"] ++ [.back] ++
  code ["\x7d"] ++ [.back] ++
  code [
    "\x7d catch (notificationError) \x7b",
    "  Logger.log('Failed to send error notification: ' + notificationError.toString());",
    "\x7d"]

/-- What happens when the run fails. -/
def handlerSteps (p : Plan) : List Step :=
  code ["Logger.log('Workflow execution failed: ' + error.toString());"] ++
  (if p.choices.includeErrorHandling then mailSteps p else []) ++
  code ["throw error;"]

/-- The steps of the entry function. -/
def entrySteps (p : Plan) : List Step :=
  code [
    "/**",
    " * Main workflow execution function",
    " * Workflow: " ++ Text.remark p.graph.displayName,
    " */",
    "function " ++ functionName ++ "(triggerData) \x7b"] ++ [.deeper] ++
  code ["triggerData = triggerData || \x7b\x7d;"] ++
  narration p.choices
    ["Logger.log('Starting workflow execution: ' + JSON.stringify(triggerData));"] ++
  code [
    "const context = \x7b",
    "  triggerData: triggerData,",
    "  results: \x7b\x7d,",
    "  errors: [],",
    "  startTime: new Date(),",
    "  correlationId: Utilities.getUuid()",
    "\x7d;",
    "",
    "try \x7b"] ++ [.deeper] ++
  narration p.choices
    ["Logger.log('Execution context initialized: ' + context.correlationId);"] ++
  (if p.order.isEmpty then [remark "No nodes to execute"] else []) ++
  p.order.flatMap (fun n => code [""] ++ nodeSteps n p.choices) ++
  code [""] ++
  narration p.choices
    ["Logger.log('Workflow completed in ' + (new Date() - context.startTime) + 'ms');"] ++
  code [
    "return \x7b",
    "  success: true,",
    "  results: context.results,",
    "  errors: context.errors,",
    "  executionTime: new Date() - context.startTime,",
    "  correlationId: context.correlationId",
    "\x7d;"] ++ [.back] ++
  code ["\x7d catch (error) \x7b"] ++ [.deeper] ++ handlerSteps p ++ [.back] ++
  code ["\x7d"] ++ [.back] ++
  code ["\x7d"]

/-- The lines of the entry function. -/
def entryLines (p : Plan) : List String := ((Sheet.empty 0).takeAll (entrySteps p)).lines false

/-- The lines of all node functions, each behind an empty line. -/
def functionLines (p : Plan) : Traced (List String) := do
  let functions ← Traced.forEach (fun n => NodeFunction.build n p.choices) p.nodes
  return functions.flatMap fun sheet => "" :: sheet.lines false

/-- The text of the main file. -/
def text (p : Plan) (started : Moment) : Traced String := do
  let functions ← functionLines p
  return Text.joinLines (header p started ++ entryLines p ++ functions) ++ "\n"

end Flowscript.Entry
