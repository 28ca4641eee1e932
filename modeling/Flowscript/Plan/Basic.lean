-- Plans. A plan has every node of a graph once, with its function name and
-- its resolved configuration, and the order in which the nodes run.
import Flowscript.Options
import Flowscript.Placeholder
import Flowscript.Plan.Names
import Flowscript.RunOrder

namespace Flowscript

/-- A graph made ready for writing. -/
structure Plan where
  graph : Graph
  choices : Choices
  nodes : List PlannedNode
  order : List PlannedNode

namespace Plan

/-- The planned node with the given id. -/
def node? (p : Plan) (id : String) : Option PlannedNode := p.nodes.find? fun n => n.id == id

/-- The values that placeholders of a node can reach when compiling. -/
def valuesFor (g : Graph) (c : Choices) (n : Node) : Value :=
  .object [
    ("workflow", .object [
      ("id", .text g.id),
      ("name", .text g.displayName),
      ("description", .text (g.description.getD ""))]),
    ("node", .object [("id", .text n.id), ("type", .text n.type)]),
    ("options", c.toValue)]

/-- Plans one node. -/
def planNode (g : Graph) (c : Choices) (n : Node) (name : String) :
    Except NumberFault PlannedNode := do
  let config ← Placeholder.resolveFields (valuesFor g c n) n.data
  return ⟨n.id, n.type, name, config⟩

/-- Plans nodes with their names. -/
def planNodes (g : Graph) (c : Choices) : List (Node × String) → Except NumberFault
    (List PlannedNode)
  | [] => .ok []
  | (n, name) :: rest => do
    let here ← planNode g c n name
    let others ← planNodes g c rest
    return here :: others

/-- The edges of a graph as pairs of ids. -/
def links (g : Graph) : List RunOrder.Link := g.edges.map fun e => (e.source, e.target)

/-- Plans a graph. Ordering comes first, so a cycle is met before anything else. -/
def build (g : Graph) (c : Choices) : Traced Plan := do
  let ids ← RunOrder.orderTraced (g.nodes.map Node.id) (links g)
  let nodes := distinctNodes g.nodes
  let names := functionNames (nodes.map Node.id)
  let planned ← Traced.of ((planNodes g c (nodes.zip names)).mapError .number)
  return ⟨g, c, planned, ids.filterMap fun id => planned.find? fun n => n.id == id⟩

end Plan

end Flowscript
