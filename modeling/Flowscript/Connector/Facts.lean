-- What filling a node's slots needs to know: the connector, its credentials,
-- its rate limit and the key under which items are remembered.
import Flowscript.Connector.Credential
import Flowscript.Fault

namespace Flowscript

/-- Facts of a node that its slots are filled with. What is written into the code as a literal or
read as a number is kept as it was given: the slug, the header, the names of properties, the
limits, the key and the time to live. -/
structure Facts where
  slug : Value := .text "http"
  connectorName : String := "HTTP"
  authType : Value := .null
  apiKeyHeader : Value := .text "X-API-Key"
  tokenProperty : Value := .null
  apiKeyProperty : Value := .null
  usernameProperty : Value := .null
  passwordProperty : Value := .null
  accessTokenProperty : Value := .null
  rateLimiting : Bool := false
  requestsPerMinute : Value := .int 60
  windowMs : Value := .int 60000
  dedupKey : Value := .text "items"
  ttlHours : Value := .int 24
  optionsVar : String := "options"
  responseVar : String := "response"
  itemsVar : String := "items"

namespace Facts

/-- The stem of the connector's property names, for which the slug has to be a text. -/
def stem (f : Facts) : Except Fault String :=
  match f.slug with
  | .text s => .ok (propertyStem s)
  | v => .error (.notText v.typeName)

/-- The property that is named, or else the connector's own with the given ending. -/
def propertyOr (f : Facts) (named : Value) (ending : String) : Except Fault Value :=
  if named.isTruthy then .ok named
  else do
    let stem ← f.stem
    return .text (stem ++ ending)

/-- The script properties that a scheme reads. -/
def propertiesOf (f : Facts) : Scheme → Except Fault (List Value)
  | .apiKey => do
    let key ← f.propertyOr f.apiKeyProperty "_API_KEY"
    return [key]
  | .bearer => do
    let token ← f.propertyOr f.tokenProperty "_TOKEN"
    return [token]
  | .basic => do
    let username ← f.propertyOr f.usernameProperty "_USERNAME"
    let password ← f.propertyOr f.passwordProperty "_PASSWORD"
    return [username, password]
  | .oauth2 => do
    let token ← f.propertyOr (f.accessTokenProperty.orElse f.tokenProperty) "_ACCESS_TOKEN"
    return [token]

/-- The script properties that hold the node's secrets. -/
def secretProperties (f : Facts) : Except Fault (List Value) :=
  match Scheme.ofValue? f.authType with
  | some scheme => f.propertiesOf scheme
  | none => .ok []

/-- The key that stands in front of an item's own, for which it has to be a text. -/
def itemStem (f : Facts) : Except Fault String :=
  match f.dedupKey with
  | .text s => .ok (s ++ ":")
  | v => .error (.notExtensible v.typeName)

end Facts

end Flowscript
