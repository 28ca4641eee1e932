-- Recipes of the nodes that start a workflow. Those that poll remember the
-- items they have seen.
import Flowscript.Recipe.Basic

namespace Flowscript.Recipe

/-- The schedule that the function of a clock reports. -/
def reportedSchedule (config : Fields) : Value :=
  Config.getD config "schedule" (Config.getText config "cron" "@daily")

/-- The time zone that the function of a clock reports, where `zone` is that of the workflow. -/
def reportedZone (config : Fields) (zone : String) : Value := Config.getText config "timezone" zone

/-- A run at the installed times. -/
def timeTrigger : Recipe where
  result := "time_trigger"
  status := "triggered"
  outline := fun n c => return {
    steps := [remark "Time trigger: runs on the installed schedule"]
    fields := [
      ("schedule", Expr.literal (reportedSchedule n.config)),
      ("timezone", Expr.literal (reportedZone n.config c.timezone)),
      ("triggeredAt", "new Date()")] }

/-- A run for each request. -/
def webhookTrigger : Recipe where
  result := "webhook_trigger"
  status := "triggered"
  outline := fun _ _ => return {
    steps := [remark "Webhook trigger: request data arrives through doPost/doGet"] ++
      code ["const request = context.triggerData || \x7b\x7d;"]
    fields := [
      ("method", "request.method || 'POST'"),
      ("headers", "request.headers || \x7b\x7d"),
      ("body", "request.body || \x7b\x7d"),
      ("query", "request.query || \x7b\x7d")] }

/-- The facts of a trigger that polls `source`. -/
def pollingFacts (source : String) (n : PlannedNode) (c : Choices) : Except Fault Facts :=
  let ttl := Config.getD n.config "dedupTtlHours" (.int 24)
  match ttl.toReal with
  | .ok hours => .ok {
      slug := .text source
      rateLimiting := c.includeRateLimiting
      dedupKey := .text (source ++ ":" ++ n.id)
      ttlHours := .real hours }
  | .error .tooLarge => .error (.number .tooLarge)
  | .error _ => Config.refuse n.id "dedupTtlHours" ttl

/-- A run for each new message. -/
def gmailTrigger : Recipe where
  result := "gmail_trigger"
  status := "triggered"
  outline := fun n _ => do
    let query := Config.getText n.config "query" "is:unread"
    query.requirePrintable
    let maxResults ← Config.whole n.id n.config "maxResults" 10
    return {
      steps := [
          remark "Gmail trigger: collect messages matching the search query",
          constant "query" (.literal query),
          .line ["const maxResults = ", .number maxResults, ";"]] ++
        code [
          "const threads = GmailApp.search(query, 0, maxResults);",
          "let items = [];",
          "threads.forEach(function (thread) \x7b",
          "  thread.getMessages().forEach(function (message) \x7b",
          "    items.push(\x7b",
          "      id: message.getId(),",
          "      subject: message.getSubject(),",
          "      from: message.getFrom(),",
          "      to: message.getTo(),",
          "      date: message.getDate(),",
          "      body: message.getPlainBody(),",
          "      isUnread: message.isUnread(),",
          "      threadId: thread.getId()",
          "    \x7d);",
          "  \x7d);",
          "\x7d);"] ++
        [.slot .dedup]
      fields := [
        ("query", "query"),
        ("emailsFound", "items.length"),
        ("emails", "items")] }
  facts := pollingFacts "gmail"

/-- A run for each new row. -/
def sheetsTrigger : Recipe where
  result := "sheets_trigger"
  status := "triggered"
  outline := fun n _ => return {
    steps := [
        remark "Sheets trigger: collect rows, keyed by row number",
        constant "spreadsheetId" (.literal (Config.getText n.config "spreadsheetId" "")),
        constant "sheetName" (.literal (Config.getText n.config "sheetName" "Sheet1"))] ++
      openSheet ++
      code [
        "const values = sheet.getDataRange().getValues();",
        "const headers = values.length > 0 ? values[0] : [];",
        "let items = values.slice(1).map(function (row, index) \x7b",
        "  const record = \x7b id: sheetName + ':' + (index + 2) \x7d;",
        "  headers.forEach(function (header, column) \x7b",
        "    record[header] = row[column];",
        "  \x7d);",
        "  return record;",
        "\x7d);"] ++
      [.slot .dedup]
    fields := [
      ("spreadsheetId", "spreadsheetId"),
      ("sheetName", "sheetName"),
      ("rowsFound", "items.length"),
      ("rows", "items")] }
  facts := pollingFacts "sheets"

end Flowscript.Recipe
