-- Function names. Ids that give the same name are told apart by a number, in
-- the order of the graph, so that an earlier node never loses its name to a
-- later one.
import Flowscript.PlannedNode

namespace Flowscript.Plan

/-- The nodes with the first occurrence of each id. -/
def distinctNodes : List Node → List Node
  | [] => []
  | n :: rest => n :: (distinctNodes rest).filter fun m => m.id ≠ n.id

/-- The names that a base name may get, the preferred one first. -/
def candidates (base : String) (count : Nat) : List String :=
  base :: (List.range count).map fun k => s!"{base}_{k + 2}"

/-- The first name that is not taken. One more candidate than there are taken names is enough. -/
def freeName (taken : List String) (base : String) : String :=
  ((candidates base taken.length).find? fun name => !taken.contains name).getD base

/-- Gives names to ids in turn; `taken` are the names given before. -/
def nameAll (taken : List String) : List String → List String
  | [] => []
  | id :: rest =>
    let name := freeName taken (baseName id)
    name :: nameAll (taken ++ [name]) rest

/-- The function names of distinct ids, in order. -/
def functionNames (ids : List String) : List String := nameAll [] ids

end Flowscript.Plan
