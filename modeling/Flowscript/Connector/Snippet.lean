-- The code that fills slots: credentials, the check of a response, the rate
-- limit, and the filter for items that were seen before. The same snippets
-- fill the slots of a sheet and the markers of a text.
import Flowscript.Code.Marker
import Flowscript.Connector.Facts
import Flowscript.Journal

namespace Flowscript.Snippet

/-! ## The snippets -/

/-- The code that reads a script property. -/
def readProperty (name : Value) : String :=
  "PropertiesService.getScriptProperties().getProperty(" ++ Json.literal name ++ ")"

/-- The code that makes sure there are headers. -/
def headersLine (opts : String) : String :=
  opts ++ ".headers = " ++ opts ++ ".headers || \x7b\x7d;"

/-- The code that adds credentials of a scheme, given what reads each property. -/
def schemeLines (f : Facts) (reads : List String) : Scheme → List String
  | .apiKey =>
    ["// API key authentication", headersLine f.optionsVar,
      "const apiKey = " ++ reads.headD "" ++ ";",
      "if (apiKey) \x7b",
      "  " ++ f.optionsVar ++ ".headers[" ++ Json.literal f.apiKeyHeader ++ "] = apiKey;",
      "\x7d"]
  | .bearer =>
    ["// Bearer token authentication", headersLine f.optionsVar,
      "const token = " ++ reads.headD "" ++ ";",
      "if (token) \x7b",
      "  " ++ f.optionsVar ++ ".headers['Authorization'] = 'Bearer ' + token;",
      "\x7d"]
  | .basic =>
    ["// Basic authentication", headersLine f.optionsVar,
      "const username = " ++ reads.headD "" ++ ";",
      "const password = " ++ (reads.drop 1).headD "" ++ ";",
      "if (username && password) \x7b",
      "  " ++ f.optionsVar ++ ".headers['Authorization'] = 'Basic ' + " ++
        "Utilities.base64Encode(username + ':' + password);",
      "\x7d"]
  | .oauth2 =>
    ["// OAuth2 authentication", headersLine f.optionsVar,
      "const accessToken = " ++ reads.headD "" ++ ";",
      "if (accessToken) \x7b",
      "  " ++ f.optionsVar ++ ".headers['Authorization'] = 'Bearer ' + accessToken;",
      "\x7d"]

/-- The code that adds credentials. A scheme that is not known adds none and leaves a warning. -/
def authLines (f : Facts) : Traced (List String) :=
  match Scheme.normalize f.authType with
  | none => return []
  | some name =>
    match Scheme.ofName? name with
    | some scheme => do
      let names ← Traced.of (f.propertiesOf scheme)
      return schemeLines f (names.map readProperty) scheme
    | none => do
      Traced.note .warning (s!"Unsupported auth type '{f.authType.plain}' for connector " ++
        s!"'{f.slug.plain}'; no auth injected")
      return []

/-- The code that stops at an error response. -/
def errorLines (f : Facts) : List String :=
  ["// Fail on HTTP error responses",
    "if (" ++ f.responseVar ++ ".getResponseCode() >= 400) \x7b",
    "  const errorMessage = " ++ Json.quote (f.connectorName ++ " API error (") ++ " + " ++
      f.responseVar ++ ".getResponseCode() + '): ' + " ++ f.responseVar ++ ".getContentText();",
    "  Logger.log(errorMessage);",
    "  throw new Error(errorMessage);",
    "\x7d"]

/-- The code that keeps the rate limit, from the codes of the slug and of the two numbers. -/
def limitCode (slug requests window : String) : List String := [
  "// Rate limiting",
  "checkRateLimit(" ++ slug ++ ", " ++ requests ++ ", " ++ window ++ ");"]

/-- The code that asks the rate limiter, where rate limiting is on. -/
def rateLimitLines (f : Facts) : Except NumberFault (List String) :=
  if f.rateLimiting then do
    let slug ← if f.slug.isPrintable then .ok (Json.literal f.slug) else .error .tooWide
    let requests ← wholeText (← f.requestsPerMinute.toWhole)
    let window ← wholeText (← f.windowMs.toWhole)
    return limitCode slug requests window
  else .ok []

/-- The time to live as code: a whole number of hours has no point. -/
def hoursCode (ttl : Value) : Except NumberFault String := do
  let hours ← ttl.toReal
  if hours.isWhole then return toString (← ttl.toWhole) else return ttl.plain

/-- The code that drops items that were seen before, from the time to live and the stem of the
keys. -/
def dedupCode (items hours stem : String) : List String := [
  "// Skip items already processed in the last " ++ hours ++ " hours",
  items ++ " = " ++ items ++ ".filter(function (item) \x7b",
  "  const itemKey = " ++ Json.quote stem ++ " + (item.id || item.uuid || JSON.stringify(item));",
  "  if (isAlreadyProcessed(itemKey)) \x7b",
  "    // Seen again: push the expiry forward",
  "    markProcessed(itemKey, " ++ hours ++ ");",
  "    return false;",
  "  \x7d",
  "  markProcessed(itemKey, " ++ hours ++ ");",
  "  return true;",
  "\x7d);"]

/-- The code that drops items that were seen before, for the items and the keys of the facts. -/
def dedupLines (f : Facts) : Except Fault (List String) := do
  let hours ← (hoursCode f.ttlHours).mapError Fault.number
  let stem ← f.itemStem
  return dedupCode f.itemsVar hours stem

/-- The values that the code for credentials prints: the names of the properties with the header, or
the slug where the scheme is not known. -/
def authValues (f : Facts) : Except Fault (List Value) :=
  match Scheme.normalize f.authType with
  | none => return []
  | some name =>
    match Scheme.ofName? name with
    | some scheme => do
      let names ← f.propertiesOf scheme
      return names ++ if scheme = .apiKey then [f.apiKeyHeader] else []
    | none => return [f.slug]

/-- The code that fills a kind of slot. What it takes from the facts has to be printed; a scheme is
printed to be looked up. -/
def lines (kind : SlotKind) (f : Facts) : Traced (List String) :=
  match kind with
  | .auth => do
    f.authType.requirePrintable
    Value.requirePrintable (.list (← authValues f))
    authLines f
  | .error => return errorLines f
  | .rateLimit => Traced.of ((rateLimitLines f).mapError .number)
  | .dedup => Traced.of (dedupLines f)

/-! ## Filling -/

/-- Fills the markers of a text. A text without a marker of the kind is left as it is. -/
def intoText (code : String) (kind : SlotKind) (f : Facts) : Traced String :=
  if Marker.occursIn kind code then do
    let snippet ← lines kind f
    return Marker.fill kind snippet code
  else return code

/-- Fills the slots of one kind in a sheet and tells whether there were any. -/
def intoSheet (s : Sheet) (kind : SlotKind) (f : Facts) : Traced (Sheet × Bool) :=
  if s.hasSlot kind then do
    let snippet ← lines kind f
    Traced.note .debug s!"Filled {kind.name} slot for connector '{f.slug.plain}'"
    return (s.fill kind snippet, true)
  else return (s, false)

/-- Fills the slots of several kinds in turn and gives the kinds that were there. -/
def intoSheetAll (s : Sheet) (f : Facts) : List SlotKind → Traced (Sheet × List SlotKind)
  | [] => return (s, [])
  | kind :: rest => do
    let (s', filled) ← intoSheet s kind f
    let (s'', kinds) ← intoSheetAll s' f rest
    return (s'', if filled then kind :: kinds else kinds)

end Flowscript.Snippet
