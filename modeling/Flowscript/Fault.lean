-- What can go wrong, as causes with one wording each. The faults of a graph,
-- its options, its nodes and its verdict are the expected ones; the others
-- come from values that a caller left unchecked.
import Flowscript.Json.Reader
import Flowscript.Value.Number

namespace Flowscript

/-! ## Problems of a payload -/

/-- What a payload describes. -/
inductive Subject where
  | graph
  | options
deriving DecidableEq, Repr

/-- The name of a subject inside a sentence. -/
def Subject.label : Subject → String
  | .graph => "graph"
  | .options => "compiler options"

/-- The name of a subject at the start of a sentence. -/
def Subject.title : Subject → String
  | .graph => "Graph"
  | .options => "Compiler options"

/-- What is wrong with a field of a payload. -/
inductive FieldProblem where
  | required
  | text
  | flag
  | flagSpelling
  | list
  | object
  | record (name : String)
  | tooWide
deriving DecidableEq, Repr

/-- The wording of a field's problem. -/
def FieldProblem.message : FieldProblem → String
  | .required => "Field required"
  | .text => "Input should be a valid string"
  | .flag => "Input should be a valid boolean"
  | .flagSpelling => "Input should be a valid boolean, unable to interpret input"
  | .list => "Input should be a valid list"
  | .object => "Input should be a valid dictionary"
  | .record name => s!"Input should be a valid dictionary or instance of {name}"
  | .tooWide => NumberFault.message .tooWide

/-- A problem and the path of names and positions that leads to it. -/
structure SchemaProblem where
  path : List String
  problem : FieldProblem
deriving DecidableEq, Repr

/-- The wording of a problem with its path. -/
def SchemaProblem.message (p : SchemaProblem) : String :=
  Text.joinWith "." p.path ++ ": " ++ p.problem.message

/-! ## Problems of a node -/

/-- What is wrong with the configuration of a node. -/
inductive ConfigProblem where
  | notANumber (key : String) (value : Value)
  | rowsNotList
  | mappingNotObject

/-- The wording of a configuration problem. -/
def ConfigProblem.message : ConfigProblem → String
  | .notANumber key value => s!"'{key}' must be a number, got {value.shown}"
  | .rowsNotList => "'values' must be a list of rows"
  | .mappingNotObject => "'mapping' must be an object"

/-! ## Faults -/

/-- A cause of failure. -/
inductive Fault where
  | graphText (problem : Json.Problem) (place : Json.Place)
  | notAnObject (subject : Subject) (typeName : String)
  | schema (subject : Subject) (problems : List SchemaProblem)
  | cycle (id : String)
  | rejected (errors : List String)
  | config (id : String) (problem : ConfigProblem)
  | number (fault : NumberFault)
  | badFlag (name raw : String)
  | variableName
  | nullCharacter
  | unknownSlot (name : Value)
  | unknownFileType (name : Value)
  | noChoice
  | notIterable (typeName : String)
  | noMember (typeName member : String)
  | notText (typeName : String)
  | notExtensible (typeName : String)
  | notAKey (typeName : String)
  | noBody
  | validator (message : String)

/-- The fault of a payload with problems. A number that cannot be printed stops the reading,
whatever else is wrong. -/
def Fault.ofProblems (subject : Subject) (problems : List SchemaProblem) : Fault :=
  if problems.any fun p => p.problem == .tooWide then .number .tooWide
  else .schema subject problems

/-- The texts that a flag may have, in ascending order. -/
def acceptedFlags : List String := ["0", "1", "false", "no", "off", "on", "true", "yes"]

namespace Fault

/-- The wording of a fault. -/
def message : Fault → String
  | .graphText problem place =>
    s!"Invalid graph JSON: {problem.message}: line {place.line} column {place.column} " ++
      s!"(char {place.offset})"
  | .notAnObject subject typeName => s!"{subject.title} must be an object, got {typeName}"
  | .schema subject problems =>
    s!"Invalid {subject.label}: " ++ Text.joinWith "; " (problems.map SchemaProblem.message)
  | .cycle id => s!"Circular dependency detected involving node: {id}"
  | .rejected errors =>
    "Graph validation failed: " ++
      if errors.isEmpty then "unknown validation error" else Text.joinWith "; " errors
  | .config id problem => s!"Node '{id}': {problem.message}"
  | .number fault => fault.message
  | .badFlag name raw =>
    s!"Invalid value for {name}: {Text.quoted raw}. Accepted values: " ++
      Text.joinWith ", " acceptedFlags
  | .variableName => "illegal environment variable name"
  | .nullCharacter => "embedded null byte"
  | .unknownSlot name => s!"{name.shown} is not a valid SlotKind"
  | .unknownFileType name => s!"{name.shown} is not a valid FileType"
  | .noChoice => "min() arg is an empty sequence"
  | .notIterable typeName => s!"'{typeName}' object is not iterable"
  | .noMember typeName member => s!"'{typeName}' object has no attribute '{member}'"
  | .notText typeName => s!"expected string or bytes-like object, got '{typeName}'"
  | .notExtensible typeName =>
    if typeName = "list" then "can only concatenate list (not \"str\") to list"
    else s!"unsupported operand type(s) for +: '{typeName}' and 'str'"
  | .notAKey typeName => s!"unhashable type: '{typeName}'"
  | .noBody => "NodeTemplate does not implement emit_body"
  | .validator message => message

/-- Whether a fault is one that compiling a workflow is expected to meet. -/
def isExpected : Fault → Bool
  | .graphText .. => true
  | .notAnObject .. => true
  | .schema .. => true
  | .cycle _ => true
  | .rejected _ => true
  | .config .. => true
  | _ => false

/-- The wording of a fault for a result, which is never empty: a validator that fails without a
word is reported by the kind of its failure. -/
def report (f : Fault) : String := if f.message = "" then "RuntimeError" else f.message

end Fault

namespace Value

/-- Refuses a value that cannot be printed. -/
def requirePrintable (v : Value) : Except Fault Unit :=
  if v.isPrintable then .ok () else .error (.number .tooWide)

/-- The plain form of a value that is printed. -/
def print (v : Value) : Except Fault String := do
  v.requirePrintable
  return v.plain

end Value

end Flowscript
