-- Verdicts on graphs. A verdict says whether a graph may be compiled, with
-- the reasons, and which permissions it needs. One that comes from outside is
-- read leniently: a text counts as the list of its characters and an object
-- as the list of its names.
import Flowscript.Fault

namespace Flowscript

/-- A verdict on a graph. -/
structure Verdict where
  valid : Bool
  errors : List String := []
  warnings : List String := []
  requiredScopes : List Value := []
  estimatedComplexity : Int := 0

namespace Value

/-- The items that a value is made of. -/
def elements : Value → Except Fault (List Value)
  | .list items => .ok items
  | .text s => .ok (s.toList.map fun c => .text (String.singleton c))
  | .object fields => .ok (fields.map fun f => .text f.1)
  | v => .error (.notIterable v.typeName)

/-- The items of a value, of which there are none where it does not count as set. -/
def elementsOrNone (v : Value) : Except Fault (List Value) :=
  if v.isTruthy then v.elements else .ok []

end Value

namespace Verdict

/-- The text of a reason: that of its field `message`, if it has one. -/
def reason : Value → Except Fault String
  | .object fields => ((Fields.get? fields "message").getD (.object fields)).print
  | v => v.print

/-- The texts of reasons. -/
def reasons (v : Value) : Except Fault (List String) := do
  let items ← v.elementsOrNone
  items.mapM reason

/-- Reads a verdict from fields. -/
def ofFields (fields : Fields) : Except Fault Verdict := do
  let field := fun key => (fields.get? key).getD .null
  let errors ← reasons (field "errors")
  let warnings ← reasons (field "warnings")
  let scopes ← ((fields.get? "requiredScopes").getD (field "required_scopes")).elementsOrNone
  let complexity ← (((field "estimatedComplexity").orElse (.int 0)).toWhole).mapError Fault.number
  return ⟨(field "valid").isTruthy, errors, warnings, scopes, complexity⟩

/-- Reads a verdict from a value. -/
def ofValue : Value → Except Fault Verdict
  | .object fields => ofFields fields
  | v => .error (.noMember v.typeName "get")

end Verdict

end Flowscript
