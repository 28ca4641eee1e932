-- Recipes of the nodes that call a service over the network. Their bodies
-- have slots for the rate limit, the credentials and the check of the
-- response.
import Flowscript.Recipe.Basic

namespace Flowscript.Recipe

/-- A service that a recipe calls: how it is known, and the scheme it uses by default. -/
structure Service where
  slug : String
  name : String
  scheme : Value

/-- The limits that a node gives for the calls of a service. -/
def rateLimits (config : Fields) : Fields :=
  match config.get? "rateLimit" with
  | some (.object fields) => fields
  | _ => []

/-- The facts of a node that calls a service. The limit of requests is taken from the node's rate
limit, then from the node itself. -/
def serviceFacts (s : Service) (n : PlannedNode) (c : Choices) : Except Fault Facts := do
  let slug ← (Config.getText n.config "connector" s.slug).print
  let name ←
    (Config.getText n.config "connectorName" (if slug = s.slug then s.name else slug)).print
  let header ← (Config.getText n.config "apiKeyHeader" "X-API-Key").print
  let limits := rateLimits n.config
  let ownRequests ← Config.whole n.id n.config "requestsPerMinute" 60
  let requests ← Config.whole n.id limits "requestsPerMinute" ownRequests
  let window ← Config.whole n.id limits "windowMs" 60000
  let own := fun key => Config.getD n.config key .null
  return {
    slug := .text slug
    connectorName := name
    authType := Config.getD n.config "authType" s.scheme
    apiKeyHeader := .text header
    tokenProperty := own "tokenProperty"
    apiKeyProperty := own "apiKeyProperty"
    usernameProperty := own "usernameProperty"
    passwordProperty := own "passwordProperty"
    accessTokenProperty := own "accessTokenProperty"
    rateLimiting := c.includeRateLimiting
    requestsPerMinute := .int requests
    windowMs := .int window }

/-- The script properties that hold the secrets of a node that calls a service. The scheme is
printed to be looked up. -/
def serviceSecrets (s : Service) (n : PlannedNode) (c : Choices) : Except Fault (List Value) := do
  let facts ← serviceFacts s n c
  facts.authType.requirePrintable
  facts.secretProperties

/-- The steps of the call itself. -/
def callSteps (url : Part) : List Step := [
  .slot .rateLimit,
  .slot .auth,
  .line ["const response = UrlFetchApp.fetch(", url, ", options);"],
  .slot .error,
  .line ["const responseData = safeJsonParse(response.getContentText(), " ++
    "response.getContentText());"]]

/-- Any service, known by its address. -/
def anyService : Service := ⟨"http", "HTTP", .null⟩

/-- Requests an address. -/
def httpRequest : Recipe where
  result := "http_request"
  status := "completed"
  outline := fun n _ => do
    let verb ← (Config.getText n.config "method" "GET").print
    let method := Text.upper verb
    let payload :=
      Config.getD n.config "payload" (Config.getD n.config "body" (.object []))
    return {
      steps := [
          remark "HTTP request",
          constant "url" (.ofText (Config.getText n.config "url" "https://api.example.com")),
          constant "method" (.literal (.text method))] ++
        code ["const options = \x7b"] ++
        [.deeper] ++
        code ["method: method,"] ++
        [.line ["headers: ", Expr.resolved (Config.getD n.config "headers" (.object [])), ","]] ++
        code ["muteHttpExceptions: true"] ++
        [.back] ++
        code ["\x7d;"] ++
        (if method = "GET" then []
          else code ["options.contentType = 'application/json';"] ++
            [.line ["options.payload = JSON.stringify(", Expr.resolved payload, ");"]]) ++
        callSteps "url"
      fields := [
        ("url", "url"),
        ("method", "method"),
        ("responseCode", "response.getResponseCode()"),
        ("responseData", "responseData")] }
  facts := serviceFacts anyService
  secrets := serviceSecrets anyService

/-- The messaging service. -/
def slack : Service := ⟨"slack", "Slack", .text "bearer"⟩

/-- Posts a message. -/
def slackPost : Recipe where
  result := "slack_post_message"
  status := "sent"
  outline := fun n _ => return {
    steps := [
        remark "Post a message to Slack",
        constant "channel" (.ofText (Config.getText n.config "channel" "#general")),
        constant "text"
          (.ofText (Config.getD n.config "text" (Config.getText n.config "message" "")))] ++
      code ["const message = \x7b channel: channel, text: text \x7d;"] ++
      optionalFields n.config "message"
        [("username", "username"), ("iconEmoji", "icon_emoji"), ("threadTs", "thread_ts")] ++
      code ["const options = \x7b"] ++
      [.deeper] ++
      code [
        "method: 'post',",
        "contentType: 'application/json',",
        "headers: \x7b\x7d,",
        "payload: JSON.stringify(message),",
        "muteHttpExceptions: true"] ++
      [.back] ++
      code ["\x7d;"] ++
      callSteps (Expr.literal (.text "https://slack.com/api/chat.postMessage")) ++
      code [
        "if (responseData && responseData.ok === false) \x7b",
        "  throw new Error('Slack API error: ' + responseData.error);",
        "\x7d"]
    fields := [
      ("channel", "channel"),
      ("ts", "responseData ? responseData.ts : null"),
      ("sentAt", "new Date()")] }
  facts := serviceFacts slack
  secrets := serviceSecrets slack

end Flowscript.Recipe
