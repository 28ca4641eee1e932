-- Workflow graphs: nodes with a dotted type tag and a free configuration, and
-- edges that say which node runs after which.
import Flowscript.Text.Blank
import Flowscript.Value.Basic

namespace Flowscript

/-- A node of a workflow. -/
structure Node where
  id : String
  type : String
  data : Fields

/-- An edge: the target runs after the source. -/
structure Edge where
  id : String
  source : String
  target : String
deriving DecidableEq, Repr

/-- A workflow. -/
structure Graph where
  id : String
  name : String
  description : Option String
  nodes : List Node
  edges : List Edge

/-- The first segment of a type tag. -/
def tagCategory (tag : String) : String := (Text.splitAt '.' tag).headD ""

namespace Node

/-- The first segment of the node's type. -/
def category (n : Node) : String := tagCategory n.type

/-- Whether the node starts the workflow. -/
def isTrigger (n : Node) : Bool := n.category == "trigger"

end Node

namespace Graph

/-- The name that stands for the workflow: its name, else its id, else a fixed text. -/
def displayName (g : Graph) : String :=
  if g.name ≠ "" then g.name else if g.id ≠ "" then g.id else "Unnamed Workflow"

/-- The first node with the given id. -/
def node? (g : Graph) (id : String) : Option Node := g.nodes.find? fun n => n.id == id

/-- The nodes that start the workflow. -/
def triggerNodes (g : Graph) : List Node := g.nodes.filter Node.isTrigger

end Graph

end Flowscript
