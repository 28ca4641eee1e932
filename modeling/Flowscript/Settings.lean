-- Settings of a deployment: the manifest's policy, and what options fall back
-- to. They come from variables, where a blank value counts as absent.
import Flowscript.Fault
import Flowscript.Text.Case

namespace Flowscript

/-- The settings of a deployment. -/
structure Settings where
  timezone : String := "America/New_York"
  version : String := "1.0.0"
  runtimeVersion : String := "V8"
  webappAccess : String := "ANYONE_ANONYMOUS"
  webappExecuteAs : String := "USER_DEPLOYING"
  executionApiAccess : String := "ANYONE"
  includeLogging : Bool := true
  includeErrorHandling : Bool := true
  includeRateLimiting : Bool := false
deriving DecidableEq, Repr

namespace Settings

/-- Variables by name; the first of a name counts. -/
abbrev Variables := List (String × String)

/-- What the name of every variable starts with. -/
def variableStem : String := "SCRIPTGRAPH_"

/-- The texts that switch a flag on. -/
def onTexts : List String := ["1", "true", "yes", "on"]

/-- The texts that switch a flag off. -/
def offTexts : List String := ["0", "false", "no", "off"]

/-- Reads the flag of a variable. -/
def readFlag (name raw : String) : Except Fault Bool :=
  let folded := Text.lower (Text.trim raw)
  if onTexts.contains folded then .ok true
  else if offTexts.contains folded then .ok false
  else .error (.badFlag name raw)

/-- The value of a variable that is not blank. -/
def present? (vars : Variables) (key : String) : Option String :=
  match vars.lookup (variableStem ++ key) with
  | some raw => if Text.trim raw = "" then none else some raw
  | none => none

/-- A text variable without the blanks around it. -/
def textOr (vars : Variables) (key default : String) : String :=
  match present? vars key with
  | some raw => Text.trim raw
  | none => default

/-- A flag variable. -/
def flagOr (vars : Variables) (key : String) (default : Bool) : Except Fault Bool :=
  match present? vars key with
  | some raw => readFlag (variableStem ++ key) raw
  | none => .ok default

/-- The settings that variables give. -/
def ofVariables (vars : Variables) : Except Fault Settings := do
  let defaults : Settings := {}
  let logging ← flagOr vars "INCLUDE_LOGGING" defaults.includeLogging
  let errorHandling ← flagOr vars "INCLUDE_ERROR_HANDLING" defaults.includeErrorHandling
  let rateLimiting ← flagOr vars "INCLUDE_RATE_LIMITING" defaults.includeRateLimiting
  return {
    timezone := textOr vars "TIMEZONE" defaults.timezone
    version := textOr vars "VERSION" defaults.version
    runtimeVersion := textOr vars "RUNTIME_VERSION" defaults.runtimeVersion
    webappAccess := textOr vars "WEBAPP_ACCESS" defaults.webappAccess
    webappExecuteAs := textOr vars "WEBAPP_EXECUTE_AS" defaults.webappExecuteAs
    executionApiAccess := textOr vars "EXECUTION_API_ACCESS" defaults.executionApiAccess
    includeLogging := logging
    includeErrorHandling := errorHandling
    includeRateLimiting := rateLimiting
  }

end Settings

end Flowscript
