-- Configuration values. A value is what a JSON text can say, with whole
-- numbers kept apart from double-precision ones and with the fields of an
-- object in their order.
import Flowscript.Number.Binary64

namespace Flowscript

/-- A configuration value. -/
inductive Value where
  | null
  | bool (b : Bool)
  | int (n : Int)
  | real (x : Binary64)
  | text (s : String)
  | list (items : List Value)
  | object (fields : List (String × Value))
deriving Repr, Inhabited

/-- The fields of an object, in order. -/
abbrev Fields := List (String × Value)

namespace Fields

/-- The value of the first field with the given name. -/
def get? (fields : Fields) (key : String) : Option Value := fields.lookup key

/-- Sets a field: a known name keeps its place, a new one goes to the end. -/
def put (key : String) (value : Value) : Fields → Fields
  | [] => [(key, value)]
  | (k, v) :: rest => if k = key then (k, value) :: rest else (k, v) :: put key value rest

/-- The fields that a sequence of settings leaves. -/
def ofEntries (entries : List (String × Value)) : Fields :=
  entries.foldl (fun fields e => put e.1 e.2 fields) []

end Fields

namespace Value

/-- The name of a value's type. -/
def typeName : Value → String
  | .null => "NoneType"
  | .bool _ => "bool"
  | .int _ => "int"
  | .real _ => "float"
  | .text _ => "str"
  | .list _ => "list"
  | .object _ => "dict"

/-- Whether a value counts as set: not null, not false, not zero and not empty. -/
def isTruthy : Value → Bool
  | .null => false
  | .bool b => b
  | .int n => n != 0
  | .real x => !x.isZero
  | .text s => s != ""
  | .list items => !items.isEmpty
  | .object fields => !fields.isEmpty

/-- The value, or `other` where it does not count as set. -/
def orElse (v other : Value) : Value := if v.isTruthy then v else other

/-- The truth value as a whole number. -/
def ofFlag (b : Bool) : Int := if b then 1 else 0

/-- Whether two scalar values name the same entry of a table. Numbers are compared as numbers, and
a truth value counts as zero or one. -/
def sameKey : Value → Value → Bool
  | .null, .null => true
  | .text s, .text t => s == t
  | .bool a, .bool b => a == b
  | .bool a, .int n => ofFlag a == n
  | .int n, .bool b => n == ofFlag b
  | .int m, .int n => m == n
  | .bool a, .real x => x.eqInt (ofFlag a)
  | .real x, .bool b => x.eqInt (ofFlag b)
  | .int n, .real x => x.eqInt n
  | .real x, .int n => x.eqInt n
  | .real .nan, .real .nan => true
  | .real x, .real y => x.eq y
  | _, _ => false

/-- Whether a value can name an entry of a table. -/
def isKey : Value → Bool
  | .list _ => false
  | .object _ => false
  | _ => true

/-- An optional text as a value. -/
def ofText? : Option String → Value
  | some s => .text s
  | none => .null

end Value

end Flowscript
