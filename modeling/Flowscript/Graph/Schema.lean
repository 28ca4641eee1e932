-- Reading records out of values. Every problem of a record is collected, in
-- the order of its fields and depth first, so that a caller sees all of them
-- at once.
import Flowscript.Fault

namespace Flowscript.Schema

/-- A value that was read, or all the problems that were met. -/
abbrev Checked (α : Type) := Except (List SchemaProblem) α

/-- The problems of a reading. -/
def problems : Checked α → List SchemaProblem
  | .ok _ => []
  | .error ps => ps

/-- Puts a step in front of the paths of all problems. -/
def within (step : String) (x : Checked α) : Checked α :=
  x.mapError fun ps => ps.map fun p => { p with path := step :: p.path }

/-- Adds a reading to a function of it; the problems of both are kept. -/
def also (f : Checked (α → β)) (x : Checked α) : Checked β :=
  match f, x with
  | .ok f, .ok a => .ok (f a)
  | f, x => .error (problems f ++ problems x)

/-- A single problem at the place of the value itself. -/
def refuse (problem : FieldProblem) : Checked α := .error [⟨[], problem⟩]

/-! ## Values -/

/-- A text; a number is taken by its text, if it can be printed. -/
def text : Value → Checked String
  | .text s => .ok s
  | .int n => if isShort n then .ok (toString n) else refuse .tooWide
  | .real x => .ok (x.text Binary64.plainSpelling)
  | _ => refuse .text

/-- The spellings of a flag that is off, in lower case. -/
def offSpellings : List String := ["0", "off", "f", "false", "n", "no"]

/-- The spellings of a flag that is on, in lower case. -/
def onSpellings : List String := ["1", "on", "t", "true", "y", "yes"]

/-- Whether a whole number fits into 64 bits with a sign. -/
def fitsWord (n : Int) : Bool := -Int.pow 2 63 ≤ n && n < Int.pow 2 63

/-- A flag: a truth value, zero or one, or one of the spellings in any mixture of cases. -/
def flag : Value → Checked Bool
  | .bool b => .ok b
  | .int n =>
    if n = 0 then .ok false else if n = 1 then .ok true
    else refuse (if fitsWord n then .flagSpelling else .flag)
  | .real x =>
    if x.eqInt 0 then .ok false else if x.eqInt 1 then .ok true else refuse .flag
  | .text s =>
    let folded := String.ofList (s.toList.map Char.toLower)
    if offSpellings.contains folded then .ok false
    else if onSpellings.contains folded then .ok true
    else refuse .flagSpelling
  | _ => refuse .flag

/-- A value that may be null. -/
def optional (read : Value → Checked α) : Value → Checked (Option α)
  | .null => .ok none
  | v => (read v).map some

/-- The fields of an object, where null stands for none. -/
def openFields : Value → Checked Fields
  | .null => .ok []
  | .object fields => .ok fields
  | _ => refuse .object

/-- The items of a list from position `n` on. -/
def items (read : Value → Checked α) (n : Nat) : List Value → Checked (List α)
  | [] => .ok []
  | v :: rest =>
    also ((within (toString n) (read v)).map List.cons) (items read (n + 1) rest)

/-- A list. -/
def list (read : Value → Checked α) : Value → Checked (List α)
  | .list vs => items read 0 vs
  | _ => refuse .list

/-- A record with the given name. -/
def record (name : String) (read : Fields → Checked α) : Value → Checked α
  | .object fields => read fields
  | _ => refuse (.record name)

/-! ## Fields -/

/-- The first of the names that a record has, with its value. -/
def present? (fields : Fields) (names : List String) : Option (String × Value) :=
  names.findSome? fun name => (fields.get? name).map (name, ·)

/-- A field that may be left out; the first of its names counts. -/
def field (fields : Fields) (names : List String) (read : Value → Checked α) (default : α) :
    Checked α :=
  match present? fields names with
  | some (name, v) => within name (read v)
  | none => .ok default

/-- A field that has to be there. -/
def requiredField (fields : Fields) (name : String) (read : Value → Checked α) : Checked α :=
  match fields.get? name with
  | some v => within name (read v)
  | none => within name (refuse .required)

end Flowscript.Schema
