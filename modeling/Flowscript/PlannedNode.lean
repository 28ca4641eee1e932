-- Nodes as they are planned: with a function name and a configuration in
-- which the placeholders known when compiling are resolved.
import Flowscript.Recipe.Kind
import Flowscript.Value.Shown

namespace Flowscript

/-- A node with its function name and its resolved configuration. -/
structure PlannedNode where
  id : String
  tag : String
  functionName : String
  config : Fields

/-- A character of a function name: ASCII letters, digits and the underscore stay. -/
def safeChar (c : Char) : Char := if c.isAlphanum || c = '_' then c else '_'

/-- An id as part of a function name. -/
def safeIdentifier (id : String) : String :=
  if id = "" then "node" else String.ofList (id.toList.map safeChar)

/-- The function name of an id, before clashes are settled. -/
def baseName (id : String) : String := "execute_" ++ safeIdentifier id

namespace PlannedNode

/-- A node planned on its own: nothing is resolved, and an empty name stands for the base name. -/
def ofNode (n : Node) (functionName : String) : PlannedNode :=
  ⟨n.id, n.type, if functionName = "" then baseName n.id else functionName, n.data⟩

/-- The kind of the node, if it has one. -/
def kind? (n : PlannedNode) : Option Kind := Kind.ofTag? n.tag

/-- The description in the configuration, if it is set. -/
def description (n : PlannedNode) : Option String :=
  match n.config.get? "description" with
  | some v => if v.isTruthy then some v.plain else none
  | none => none

/-- Whether the run goes on after the node fails; only an explicit false stops it. -/
def continueOnError (n : PlannedNode) : Bool :=
  match n.config.get? "continueOnError" with
  | some (.bool false) => false
  | _ => true

end PlannedNode

end Flowscript
