-- Files of a bundle.
import Flowscript.Fault

namespace Flowscript

/-- What a file holds. -/
inductive FileType where
  | code
  | data
  | markup
deriving DecidableEq, Repr

namespace FileType

/-- All types of file. -/
def all : List FileType := [code, data, markup]

/-- The name of a type. -/
def name : FileType → String
  | .code => "code"
  | .data => "data"
  | .markup => "markup"

/-- The type that a value names. -/
def ofValue (v : Value) : Except Fault FileType :=
  match v with
  | .text s => match all.find? fun t => t.name == s with
    | some t => .ok t
    | none => .error (.unknownFileType v)
  | v => do
    v.requirePrintable
    .error (.unknownFileType v)

end FileType

/-- A file of a bundle. -/
structure BundleFile where
  name : String
  content : String
  type : FileType := .code
  description : Option String := none
deriving DecidableEq, Repr

/-- The number of characters in the file. -/
def BundleFile.size (f : BundleFile) : Nat := f.content.length

end Flowscript
