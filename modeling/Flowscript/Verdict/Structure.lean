-- The verdict on the structure of a graph: ids and types have to be there,
-- and ids differ. Unknown types and edges to nowhere are only warned of, and
-- cycles are not looked for.
import Flowscript.Journal
import Flowscript.Verdict.Basic
import Flowscript.Verdict.Scope

namespace Flowscript.Verdict

/-- The errors of the node at a place; `seen` are the ids before it. -/
def nodeErrors (place : Nat) (seen : List String) (n : Node) : List String :=
  (if n.id = "" then [s!"nodes[{place}]: node id is required"]
    else if seen.contains n.id then [s!"nodes[{place}]: duplicate node id '{n.id}'"]
    else []) ++
  if n.type = "" then [s!"nodes[{place}]: node type is required"] else []

/-- The errors of nodes from a place on. -/
def nodesErrors (place : Nat) (seen : List String) : List Node → List String
  | [] => []
  | n :: rest => nodeErrors place seen n ++ nodesErrors (place + 1) (seen ++ [n.id]) rest

/-- The warnings of the node at a place. -/
def nodeWarnings (place : Nat) (n : Node) : List String :=
  if n.type ≠ "" ∧ Kind.ofTag? n.type = none then
    [s!"nodes[{place}]: unknown node type '{n.type}' (will compile to a stub)"]
  else []

/-- The errors of the edge at a place. -/
def edgeErrors (place : Nat) (e : Edge) : List String :=
  (if e.source = "" then [s!"edges[{place}]: edge source is required"] else []) ++
  if e.target = "" then [s!"edges[{place}]: edge target is required"] else []

/-- The warning of one end of an edge. -/
def endWarnings (ids : List String) (place : Nat) (label id : String) : List String :=
  if id ≠ "" ∧ !ids.contains id then
    [s!"edges[{place}]: {label} node '{id}' not found (edge ignored)"]
  else []

/-- The warnings of the edge at a place. -/
def edgeWarnings (ids : List String) (place : Nat) (e : Edge) : List String :=
  endWarnings ids place "source" e.source ++ endWarnings ids place "target" e.target

/-- What the checks find at each item, with its place. -/
def findings (check : Nat → α → List String) (items : List α) : List String :=
  items.zipIdx.flatMap fun (a, place) => check place a

/-- The verdict on the structure of a graph. -/
def onStructure (g : Graph) : Verdict :=
  let typed := g.nodes.filter fun n => n.type ≠ ""
  let errors := nodesErrors 0 [] g.nodes ++ findings edgeErrors g.edges
  { valid := errors.isEmpty
    errors := errors
    warnings := findings nodeWarnings g.nodes ++
      findings (edgeWarnings (g.nodes.map Node.id)) g.edges
    requiredScopes := (typed.flatMap fun n => Scope.ofTag n.type n.data).eraseDups.map .text
    estimatedComplexity := typed.foldl (fun total n => total + Kind.effortOfTag n.type) 0 }

/-- The verdict on the structure of a graph, with a note for each warning. -/
def structural (g : Graph) : Traced Verdict := do
  let verdict := onStructure g
  let _ ← Traced.forEach (Traced.note .warning) verdict.warnings
  return verdict

end Flowscript.Verdict
