-- Recipes of the nodes that work with mail, sheets and files of the
-- workspace.
import Flowscript.Recipe.Basic

namespace Flowscript.Recipe

/-- Sends a mail. -/
def gmailSend : Recipe where
  result := "gmail_send"
  status := "sent"
  outline := fun n _ => return {
    steps := [
        remark "Send email via Gmail",
        constant "to" (.ofText (Config.getText n.config "to" "\x7b\x7btriggerData.email\x7d\x7d")),
        constant "subject"
          (.ofText (Config.getText n.config "subject" "Automation Notification")),
        constant "body"
          (.ofText (Config.getText n.config "body" "This is an automated message."))] ++
      code ["const emailOptions = \x7b"] ++
      [.deeper] ++
      code ["to: to,", "subject: subject,",
        if Config.flag n.config "htmlBody" then "htmlBody: body" else "body: body"] ++
      [.back] ++
      code ["\x7d;"] ++
      optionalFields n.config "emailOptions"
        [("cc", "cc"), ("bcc", "bcc"), ("replyTo", "replyTo"), ("name", "name")] ++
      (if Config.flag n.config "attachments" then code [
          "if (context.results.attachments) \x7b",
          "  emailOptions.attachments = context.results.attachments;",
          "\x7d"]
        else []) ++
      code ["MailApp.sendEmail(emailOptions);"]
    fields := [
      ("to", "to"),
      ("subject", "subject"),
      ("sentAt", "new Date()")] }

/-- Reads mails. -/
def gmailRead : Recipe where
  result := "gmail_read"
  status := "completed"
  outline := fun n _ => do
    let query := Config.getText n.config "query" "is:unread"
    query.requirePrintable
    let maxResults ← Config.whole n.id n.config "maxResults" 10
    return {
      steps := [
          remark "Read emails from Gmail",
          constant "query" (.ofText query),
          .line ["const maxResults = ", .number maxResults, ";"],
          constant "markAsRead" (.literal (.bool (Config.flag n.config "markAsRead")))] ++
        code [
          "const threads = GmailApp.search(query, 0, maxResults);",
          "const emails = [];",
          "threads.forEach(function (thread) \x7b",
          "  thread.getMessages().forEach(function (message) \x7b",
          "    emails.push(\x7b",
          "      id: message.getId(),",
          "      subject: message.getSubject(),",
          "      from: message.getFrom(),",
          "      to: message.getTo(),",
          "      date: message.getDate(),",
          "      body: message.getPlainBody(),",
          "      htmlBody: message.getBody(),",
          "      isUnread: message.isUnread(),",
          "      threadId: thread.getId(),",
          "      labels: thread.getLabels().map(function (label) \x7b return label.getName(); \x7d)",
          "    \x7d);",
          "    if (markAsRead && message.isUnread()) \x7b",
          "      message.markRead();",
          "    \x7d",
          "  \x7d);",
          "\x7d);"]
      fields := [
        ("query", "query"),
        ("emailsRead", "emails.length"),
        ("emails", "emails")] }

/-- The rows of a setting: a list of lists, or a single row. -/
def rowsOf (items : List Value) : List Value :=
  let isRow := fun
    | Value.list _ => true
    | _ => false
  if items.isEmpty || items.all isRow then items else [.list items]

/-- The code behind the rows of a setting. -/
def rowsOpening : String := ".map(function (row) \x7b"

/-- The code that resolves every cell of a row. -/
def cellLines : List String := [
  "  return row.map(function (cell) \x7b " ++
    "return resolveTemplate(String(cell), context); \x7d);",
  "\x7d);"]

/-- The steps that take rows of cells and resolve every cell. -/
def rowSteps (rows : List Value) : List Step :=
  [.line ["const rows = ", Expr.literal (.list rows), rowsOpening]] ++ code cellLines

/-- Appends rows to a sheet. -/
def sheetsAppend : Recipe where
  result := "sheets_append"
  status := "completed"
  outline := fun n _ =>
    match Config.getD n.config "values" (.list []) with
    | .list items => return {
        steps := [
            remark "Append rows to Google Sheets",
            constant "spreadsheetId" (.literal (Config.getText n.config "spreadsheetId" "")),
            constant "sheetName" (.literal (Config.getText n.config "sheetName" "Sheet1"))] ++
          rowSteps (rowsOf items) ++
          (if Config.flag n.config "includeTimestamp" then code [
              "rows.forEach(function (row) \x7b row.push(new Date().toISOString()); \x7d);"]
            else []) ++
          openSheet ++
          code [
            "if (rows.length > 0) \x7b",
            "  sheet.getRange(sheet.getLastRow() + 1, 1, rows.length, rows[0].length)" ++
              ".setValues(rows);",
            "\x7d"]
        fields := [
          ("spreadsheetId", "spreadsheetId"),
          ("sheetName", "sheetName"),
          ("rowsAdded", "rows.length"),
          ("lastRow", "sheet.getLastRow()")] }
    | _ => Traced.fail (.config n.id .rowsNotList)

/-- Reads the cells of a range. -/
def sheetsRead : Recipe where
  result := "sheets_read"
  status := "completed"
  outline := fun n _ =>
    let hasHeaders := Config.flag n.config "hasHeaders"
    return {
      steps := [
          remark "Read data from Google Sheets",
          constant "spreadsheetId" (.literal (Config.getText n.config "spreadsheetId" "")),
          constant "sheetName" (.literal (Config.getText n.config "sheetName" "Sheet1")),
          constant "range" (.literal (Config.getText n.config "range" "A:Z"))] ++
        openSheet ++
        code ["const values = sheet.getRange(range).getValues();"] ++
        (if hasHeaders then code [
            "const headers = values.length > 0 ? values[0] : [];",
            "const records = values.slice(1).map(function (row) \x7b",
            "  const record = \x7b\x7d;",
            "  headers.forEach(function (header, column) \x7b",
            "    record[header] = row[column];",
            "  \x7d);",
            "  return record;",
            "\x7d);"]
          else [])
      fields := if hasHeaders then [
          ("spreadsheetId", "spreadsheetId"),
          ("sheetName", "sheetName"),
          ("headers", "headers"),
          ("rowsRead", "records.length"),
          ("data", "records")]
        else [
          ("spreadsheetId", "spreadsheetId"),
          ("sheetName", "sheetName"),
          ("rowsRead", "values.length"),
          ("data", "values")] }

/-- Creates a file. -/
def driveCreate : Recipe where
  result := "drive_create"
  status := "created"
  outline := fun n _ => return {
    steps := [
        remark "Create a file in Google Drive",
        constant "fileName"
          (.ofText (Config.getText n.config "fileName" "automation-file.txt")),
        constant "content"
          (.ofText (Config.getText n.config "content" "Generated by automation")),
        constant "mimeType" (.literal (Config.getText n.config "mimeType" "text/plain")),
        constant "folderId" (.literal (Config.getText n.config "folderId" ""))] ++
      code [
        "const file = folderId",
        "  ? DriveApp.getFolderById(folderId).createFile(fileName, content, mimeType)",
        "  : DriveApp.createFile(fileName, content, mimeType);"]
    fields := [
      ("fileId", "file.getId()"),
      ("fileName", "fileName"),
      ("fileUrl", "file.getUrl()"),
      ("size", "file.getSize()")] }

end Flowscript.Recipe
