-- The order in which nodes run. Nodes are taken in the order given, and
-- before a node its predecessors, in the order of the edges. A predecessor
-- that is met while it is still waiting for its own predecessors closes a
-- cycle. Edges with an unknown end are left out.
import Flowscript.Journal

namespace Flowscript.RunOrder

/-- An edge from a node to one that runs after it. -/
abbrev Link := String × String

/-- Whether both ends of an edge are among the ids. -/
def isKnown (ids : List String) (e : Link) : Bool := ids.contains e.1 && ids.contains e.2

/-- The edges between known nodes. -/
def knownLinks (ids : List String) (edges : List Link) : List Link := edges.filter (isKnown ids)

/-- The sources of the edges into a node, in the order of the edges. -/
def predecessors (links : List Link) (id : String) : List String :=
  links.filterMap fun e => if e.2 = id then some e.1 else none

/-- A node that waits for the predecessors that are still pending. -/
structure Frame where
  id : String
  pending : List String
deriving DecidableEq, Repr

/-- The state of a walk: the waiting nodes, the latest first, and the nodes that are ordered. -/
structure Walk where
  waiting : List Frame
  done : List String
deriving DecidableEq, Repr

/-- One step of a walk. The latest waiting node looks at its next pending predecessor, or is done
if there is none. -/
def step (links : List Link) (w : Walk) : Except String Walk :=
  match w.waiting with
  | [] => .ok w
  | ⟨id, []⟩ :: below => .ok ⟨below, w.done ++ [id]⟩
  | ⟨id, next :: pending⟩ :: below =>
    if w.waiting.any fun f => f.id == next then .error next
    else if w.done.contains next then .ok ⟨⟨id, pending⟩ :: below, w.done⟩
    else .ok ⟨⟨next, predecessors links next⟩ :: ⟨id, pending⟩ :: below, w.done⟩

/-- Steps until no node is waiting. The first argument bounds the steps. -/
def run (links : List Link) : Nat → Walk → Except String (List String)
  | 0, w => .ok w.done
  | fuel + 1, w =>
    if w.waiting.isEmpty then .ok w.done
    else do
      let w' ← step links w
      run links fuel w'

/-- More steps than a walk can take: each one finishes a node or looks at an edge. -/
def bound (ids : List String) (links : List Link) : Nat := ids.length + links.length + 1

/-- Orders a node and all it depends on behind the nodes that are ordered. -/
def visit (ids : List String) (links : List Link) (done : List String) (root : String) :
    Except String (List String) :=
  if done.contains root then .ok done
  else run links (bound ids links) ⟨[⟨root, predecessors links root⟩], done⟩

/-- Visits the nodes in turn. -/
def visitAll (ids : List String) (links : List Link) :
    List String → List String → Except String (List String)
  | [], done => .ok done
  | root :: rest, done => do
    let done' ← visit ids links done root
    visitAll ids links rest done'

/-- The order of the nodes, or a node on a cycle. -/
def order (ids : List String) (edges : List Link) : Except String (List String) :=
  let nodes := ids.eraseDups
  visitAll nodes (knownLinks nodes edges) nodes []

/-- The order of the nodes with notes of the edges left out and of the result. -/
def orderTraced (ids : List String) (edges : List Link) : Traced (List String) := do
  let _ ← Traced.forEach (fun (e : Link) => Traced.note .debug
    s!"Ignoring dangling edge {Text.quoted e.1} -> {Text.quoted e.2}")
    (edges.filter (!isKnown ids ·))
  match order ids edges with
  | .ok result =>
    Traced.note .debug s!"Execution order: {(Value.list (result.map .text)).shown}"
    return result
  | .error id => Traced.fail (.cycle id)

end Flowscript.RunOrder
