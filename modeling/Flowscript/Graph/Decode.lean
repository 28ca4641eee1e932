-- Reading a workflow graph, from a value or from JSON text. Fields that are
-- not known are ignored.
import Flowscript.Graph.Basic
import Flowscript.Graph.Schema

namespace Flowscript

open Schema

/-- Reads a node. -/
def Node.ofFields (fields : Fields) : Checked Node :=
  also (also ((requiredField fields "id" text).map Node.mk)
    (requiredField fields "type" text)) (field fields ["data"] openFields [])

/-- Reads an edge. -/
def Edge.ofFields (fields : Fields) : Checked Edge :=
  also (also ((field fields ["id"] text "").map Edge.mk)
    (requiredField fields "source" text)) (requiredField fields "target" text)

namespace Graph

/-- Reads a graph. -/
def ofFields (fields : Fields) : Checked Graph :=
  also (also (also (also ((field fields ["id"] text "").map Graph.mk)
    (field fields ["name"] text ""))
    (field fields ["description"] (optional text) none))
    (field fields ["nodes"] (list (record "Node" Node.ofFields)) []))
    (field fields ["edges"] (list (record "Edge" Edge.ofFields)) [])

/-- Reads a graph from a value that has to be an object. -/
def ofObject (v : Value) : Except Fault Graph :=
  match v with
  | .object fields => (ofFields fields).mapError (Fault.ofProblems .graph)
  | v => .error (.notAnObject .graph v.typeName)

/-- Reads a graph from JSON text. -/
def ofText (s : String) : Except Fault Graph :=
  match Json.parse s with
  | .ok v => ofObject v
  | .error (.malformed problem place) => .error (.graphText problem place)
  | .error (.longNumber digits) => .error (.number (.tooLong digits))

/-- Reads a graph from an object or from a text in JSON. -/
def ofValue : Value → Except Fault Graph
  | .text s => ofText s
  | v => ofObject v

/-- Line ends of a file, each written as a single line feed. -/
def unifyLineEnds : List Char → List Char
  | '\r' :: '\n' :: rest => '\n' :: unifyLineEnds rest
  | '\r' :: rest => '\n' :: unifyLineEnds rest
  | c :: rest => c :: unifyLineEnds rest
  | [] => []

/-- Reads a graph from the contents of a file. -/
def ofFile (contents : String) : Except Fault Graph :=
  ofText (String.ofList (unifyLineEnds contents.toList))

end Graph

end Flowscript
