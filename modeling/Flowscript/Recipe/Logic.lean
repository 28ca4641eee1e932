-- Recipes of the nodes that decide, map, wait and log, and of the nodes of
-- unknown kind, which are skipped.
import Flowscript.Recipe.Basic

namespace Flowscript.Recipe

/-- The comparisons that a condition knows. -/
def comparisons : List (String × String) := [
  ("==", "leftValue == rightValue"),
  ("!=", "leftValue != rightValue"),
  (">", "Number(leftValue) > Number(rightValue)"),
  ("<", "Number(leftValue) < Number(rightValue)"),
  (">=", "Number(leftValue) >= Number(rightValue)"),
  ("<=", "Number(leftValue) <= Number(rightValue)"),
  ("contains", "String(leftValue).includes(String(rightValue))"),
  ("startsWith", "String(leftValue).startsWith(String(rightValue))"),
  ("endsWith", "String(leftValue).endsWith(String(rightValue))")]

/-- The code of a comparison. An unknown one asks whether the left side is set, and leaves a
warning. -/
def comparisonCode (id operator : String) : Traced String :=
  match comparisons.lookup operator with
  | some expression => return expression
  | none => do
    Traced.note .warning s!"Node '{id}': unknown operator '{operator}', using truthiness"
    return "Boolean(leftValue)"

/-- Compares two values. -/
def condition : Recipe where
  result := "condition"
  status := "evaluated"
  outline := fun n _ => do
    let operator ← (Config.getText n.config "operator" "==").print
    let expression ← comparisonCode n.id operator
    return {
      steps := [
        remark "Conditional check",
        constant "leftValue" (.contextValue (Config.getText n.config "leftValue" "")),
        constant "operator" (.literal (.text operator)),
        constant "rightValue" (.ofText (Config.getText n.config "rightValue" "")),
        .line ["const result = ", expression, ";"]]
      fields := [
        ("leftValue", "leftValue"),
        ("operator", "operator"),
        ("rightValue", "rightValue"),
        ("result", "result")] }

/-- Maps values into a new object. -/
def dataMapper : Recipe where
  result := "data_mapper"
  status := "transformed"
  outline := fun n _ =>
    match Config.getD n.config "mapping" (.object []) with
    | .object mapping =>
      let source := Config.getText n.config "sourceField" ""
      return {
        steps := [
            remark "Map fields into a new object",
            .line ["const sourceData = ",
              if Expr.contextPath source = "" then Part.text "null"
              else Part.expr (.contextValue source), ";"]] ++
          code ["const transformedData = \x7b\x7d;"] ++
          mapping.map fun (target, value) =>
            .line ["transformedData[", Expr.literal (.text target), "] = ",
              Expr.ofValue value, ";"]
        fields := [
          ("sourceData", "sourceData"),
          ("transformedData", "transformedData")] }
    | _ => Traced.fail (.config n.id .mappingNotObject)

/-- The longest pause in milliseconds. -/
def maxDelay : Int := 300000

/-- A pause between zero and the longest one; cutting it short leaves a warning. -/
def cappedDelay (id : String) (total : Int) : Traced Int :=
  if maxDelay < total then do
    let shown ← Traced.of ((wholeText total).mapError .number)
    Traced.note .warning s!"Node '{id}': delay of {shown}ms capped at {maxDelay}ms"
    return maxDelay
  else return max total 0

/-- Waits. -/
def delay : Recipe where
  result := "delay"
  status := "completed"
  outline := fun n _ => do
    let milliseconds ← Config.whole n.id n.config "delayMs" 1000
    let seconds ← Config.whole n.id n.config "delaySeconds" 0
    let total ← cappedDelay n.id (milliseconds + seconds * 1000)
    return {
      steps := [
          remark "Pause execution",
          .line ["const delayMs = ", .number total, ";"]] ++
        code [
          "if (delayMs > 0) \x7b",
          "  Utilities.sleep(delayMs);",
          "\x7d"]
      fields := [("delayMs", "delayMs")] }

/-- The line that opens the sheet to which the entries of a log are saved. -/
def logSheetParts (config : Fields) : List Part :=
  ["  const logSheet = SpreadsheetApp.openById(",
    Expr.literal (Config.getText config "logSpreadsheetId" ""), ").getSheetByName(",
    Expr.literal (Config.getText config "logSheetName" "Logs"), ");"]

/-- Writes a log entry. -/
def logger : Recipe where
  result := "logger"
  status := "completed"
  outline := fun n _ => do
    let level ← (Config.getText n.config "level" "info").print
    return {
      steps := [
          remark "Write a log entry",
          constant "message" (.ofText (Config.getText n.config "message" "Log entry")),
          constant "level" (.literal (.text (Text.lower level)))] ++
        code [
          "const timestamp = new Date();",
          "Logger.log('[' + level.toUpperCase() + '] ' + timestamp.toISOString() + ': ' + " ++
            "message);"] ++
        (if Config.flag n.config "saveToSheet" then
          code ["try \x7b"] ++
          [.line (logSheetParts n.config)] ++
          code [
            "  logSheet.appendRow([timestamp, level, message, context.correlationId]);",
            "\x7d catch (e) \x7b",
            "  Logger.log('Failed to save log to sheet: ' + e.toString());",
            "\x7d"]
        else [])
      fields := [
        ("message", "message"),
        ("level", "level"),
        ("timestamp", "timestamp")] }

/-- Skips a node whose kind is not known. -/
def unknown : Recipe where
  result := "unknown"
  status := "skipped"
  resultOf := fun n => n.tag
  outline := fun n _ => do
    Traced.note .warning
      s!"Unknown node type '{n.tag}' on node '{n.id}'; emitting a skip stub"
    return {
      steps := [.line ["Logger.log('Unknown node type: ' + ", Expr.literal (.text n.tag), ");"]]
      fields := [("message", "'Unknown node type'")] }

end Flowscript.Recipe
