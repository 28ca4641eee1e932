-- What a kind of node asks of the deployment: permissions, and a rough
-- measure of effort.
import Flowscript.Recipe.Config
import Flowscript.Recipe.Kind

namespace Flowscript.Scope

/-- The permission to manage triggers. -/
def scriptApp : String := "https://www.googleapis.com/auth/script.scriptapp"

/-- The permission to call other services. -/
def externalRequest : String := "https://www.googleapis.com/auth/script.external_request"

/-- The permission to send mail, which notices of failure need too. -/
def sendMail : String := "https://www.googleapis.com/auth/script.send_mail"

/-- The permission to change mail. -/
def modifyMail : String := "https://www.googleapis.com/auth/gmail.modify"

/-- The permission to read mail. -/
def readMail : String := "https://www.googleapis.com/auth/gmail.readonly"

/-- The permission to change sheets. -/
def sheets : String := "https://www.googleapis.com/auth/spreadsheets"

/-- The permission to read sheets. -/
def readSheets : String := "https://www.googleapis.com/auth/spreadsheets.readonly"

/-- The permission to make files. -/
def driveFile : String := "https://www.googleapis.com/auth/drive.file"

/-- The permissions that every node of a kind needs. -/
def ofKind : Kind → List String
  | .timeTrigger => [scriptApp]
  | .webhookTrigger => [scriptApp]
  | .gmailTrigger => [readMail, scriptApp]
  | .sheetsTrigger => [readSheets, scriptApp]
  | .gmailSend => [sendMail]
  | .gmailRead => [readMail]
  | .sheetsAppend => [sheets]
  | .sheetsRead => [readSheets]
  | .driveCreate => [driveFile]
  | .httpRequest => [externalRequest]
  | .slackPost => [externalRequest]
  | .condition => []
  | .dataMapper => []
  | .delay => []
  | .logger => []

/-- The permissions of a node with the given tag; reading mail changes it where messages are
marked as read. -/
def ofTag (tag : String) (config : Fields) : List String :=
  match Kind.ofTag? tag with
  | some .gmailRead =>
    ofKind .gmailRead ++ if Config.flag config "markAsRead" then [modifyMail] else []
  | some k => ofKind k
  | none => []

end Flowscript.Scope

namespace Flowscript.Kind

/-- The effort of a node of a kind. -/
def effort : Kind → Int
  | .timeTrigger => 1
  | .webhookTrigger => 2
  | .gmailTrigger => 3
  | .sheetsTrigger => 2
  | .gmailSend => 3
  | .gmailRead => 3
  | .sheetsAppend => 2
  | .sheetsRead => 2
  | .driveCreate => 2
  | .httpRequest => 4
  | .slackPost => 3
  | .condition => 2
  | .dataMapper => 3
  | .delay => 1
  | .logger => 1

/-- The effort of a node with the given tag; an unknown one counts two. -/
def effortOfTag (tag : String) : Int := ((ofTag? tag).map effort).getD 2

end Flowscript.Kind
