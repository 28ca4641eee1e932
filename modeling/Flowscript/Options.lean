-- Options of a compilation. A field that is not set is taken from the
-- settings; what results is a choice for every field.
import Flowscript.Graph.Schema
import Flowscript.Settings

namespace Flowscript

open Schema

/-- What a caller asks for; every field may be left open. -/
structure Options where
  projectName : Option String := none
  includeLogging : Option Bool := none
  includeErrorHandling : Option Bool := none
  includeRateLimiting : Option Bool := none
  timezone : Option String := none
  version : Option String := none
deriving DecidableEq, Repr

/-- What is decided for a compilation. -/
structure Choices where
  projectName : Option String
  includeLogging : Bool
  includeErrorHandling : Bool
  includeRateLimiting : Bool
  timezone : String
  version : String
deriving DecidableEq, Repr

namespace Options

/-- Reads options. Each field has two spellings, of which the first counts. -/
def ofFields (fields : Fields) : Checked Options :=
  also (also (also (also (also
    ((field fields ["projectName", "project_name"] (optional text) none).map Options.mk)
    (field fields ["includeLogging", "include_logging"] (optional flag) none))
    (field fields ["includeErrorHandling", "include_error_handling"] (optional flag) none))
    (field fields ["includeRateLimiting", "include_rate_limiting"] (optional flag) none))
    (field fields ["timezone"] (optional text) none))
    (field fields ["version"] (optional text) none)

/-- Reads options from a value, where null leaves every field open. -/
def ofValue : Value → Except Fault Options
  | .null => .ok {}
  | .object fields => (ofFields fields).mapError (Fault.ofProblems .options)
  | v => .error (.notAnObject .options v.typeName)

/-- The choices, with open fields taken from the settings. -/
def withDefaults (o : Options) (s : Settings) : Choices where
  projectName := o.projectName
  includeLogging := o.includeLogging.getD s.includeLogging
  includeErrorHandling := o.includeErrorHandling.getD s.includeErrorHandling
  includeRateLimiting := o.includeRateLimiting.getD s.includeRateLimiting
  timezone := o.timezone.getD s.timezone
  version := o.version.getD s.version

end Options

/-- The choices as a value that placeholders can reach. -/
def Choices.toValue (c : Choices) : Value :=
  .object [
    ("projectName", .ofText? c.projectName),
    ("includeLogging", .bool c.includeLogging),
    ("includeErrorHandling", .bool c.includeErrorHandling),
    ("includeRateLimiting", .bool c.includeRateLimiting),
    ("timezone", .text c.timezone),
    ("version", .text c.version)]

end Flowscript
