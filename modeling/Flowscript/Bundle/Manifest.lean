-- The manifest of a bundle: the permissions of the workflow and the policy of
-- the deployment.
import Flowscript.Journal
import Flowscript.Settings
import Flowscript.Verdict.Basic

namespace Flowscript.Manifest

/-- The values with the first occurrence of each. -/
def distinct : List Value → List Value
  | [] => []
  | v :: rest => v :: (distinct rest).filter fun w => !v.sameKey w

/-- The values with the first occurrence of each; a list or an object cannot be told apart. -/
def distinctKeys (vs : List Value) : Except Fault (List Value) :=
  match vs.find? fun v => !v.isKey with
  | some v => .error (.notAKey v.typeName)
  | none => .ok (distinct vs)

/-- The manifest for permissions that are distinct; an empty time zone is taken from the
settings. -/
def fields (s : Settings) (timezone : Option String) (scopes : List Value) : Fields := [
  ("timeZone", .text (match timezone with
    | some zone => if zone = "" then s.timezone else zone
    | none => s.timezone)),
  ("dependencies", .object []),
  ("exceptionLogging", .text "STACKDRIVER"),
  ("oauthScopes", .list scopes),
  ("runtimeVersion", .text s.runtimeVersion),
  ("webapp", .object [
    ("access", .text s.webappAccess),
    ("executeAs", .text s.webappExecuteAs)]),
  ("executionApi", .object [("access", .text s.executionApiAccess)])]

/-- The manifest with the permissions that it lists. -/
def build (s : Settings) (timezone : Option String) (scopes : List Value) :
    Traced (Value × List Value) := do
  let scopes ← Traced.of (distinctKeys scopes)
  Traced.note .debug s!"Manifest with {scopes.length} OAuth scope(s)"
  return (.object (fields s timezone scopes), scopes)

end Flowscript.Manifest
