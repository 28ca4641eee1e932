-- The script properties that a workflow reads: those that configurations
-- name, at any depth, and those that the credentials of its nodes need.
import Flowscript.Plan.Basic
import Flowscript.Recipe.Table

namespace Flowscript.Secret

/-- The settings that name a script property. -/
def fieldNames : List String :=
  ["tokenProperty", "apiKeyProperty", "usernameProperty", "passwordProperty",
    "accessTokenProperty", "secretProperty"]

/-- The property that a setting names; a blank text names none. -/
def named? (key : String) : Value → Option String
  | .text s =>
    if fieldNames.contains key && Text.trim s ≠ "" then some (Text.trim s) else none
  | _ => none

mutual

/-- The properties that settings inside a value name. -/
def scan : Value → List String
  | .list items => scanItems items
  | .object fields => scanFields fields
  | _ => []

/-- The properties that settings inside the items of a list name. -/
def scanItems : List Value → List String
  | [] => []
  | v :: rest => scan v ++ scanItems rest

/-- The properties that fields name. -/
def scanFields : List (String × Value) → List String
  | [] => []
  | (key, v) :: rest =>
    (match named? key v with
      | some name => [name]
      | none => scan v) ++ scanFields rest

end

/-- A property and the ids of the nodes that read it. -/
structure Entry where
  name : Value
  readers : List String

/-- Adds a reader of a property; a known property keeps its place. -/
def addReader (name : Value) (id : String) : List Entry → List Entry
  | [] => [⟨name, [id]⟩]
  | e :: rest =>
    if e.name.sameKey name then
      ⟨e.name, if e.readers.contains id then e.readers else e.readers ++ [id]⟩ :: rest
    else e :: addReader name id rest

/-- The properties that a node reads. -/
def ofNode (n : PlannedNode) (c : Choices) : Except Fault (List Value) := do
  let secrets ← n.recipe.secrets n c
  let names := (scanFields n.config).map .text ++ secrets
  match names.find? fun v => !v.isKey with
  | some v => .error (.notAKey v.typeName)
  | none => return names

/-- Adds the properties of nodes in turn. -/
def collect (c : Choices) (known : List Entry) : List PlannedNode → Except Fault (List Entry)
  | [] => .ok known
  | n :: rest => do
    let names ← ofNode n c
    collect c (names.foldl (fun known name => addReader name n.id known) known) rest

/-- The properties that a plan reads, in the order in which they are met. -/
def ofPlan (p : Plan) : Except Fault (List Entry) := collect p.choices [] p.nodes

end Flowscript.Secret
