-- Work that leaves notes. A step gives back the notes it made, in order,
-- together with its outcome; notes made before a fault are kept.
import Flowscript.Fault

namespace Flowscript

/-- How much a note matters. -/
inductive Level where
  | debug
  | info
  | warning
  | error
deriving DecidableEq, Repr

namespace Level

/-- The name of a level. -/
def name : Level → String
  | .debug => "DEBUG"
  | .info => "INFO"
  | .warning => "WARNING"
  | .error => "ERROR"

/-- The rank of a level, the least important first. -/
def rank : Level → Nat
  | .debug => 0
  | .info => 1
  | .warning => 2
  | .error => 3

/-- The level of a name. -/
def ofName? (s : String) : Option Level :=
  [debug, info, warning, error].find? fun l => l.name == s

end Level

/-- A note of the work. -/
structure Note where
  level : Level
  text : String
deriving DecidableEq, Repr

/-- The notes that matter at least as much as `level`. -/
def notesFrom (level : Level) (notes : List Note) : List Note :=
  notes.filter fun n => level.rank ≤ n.level.rank

/-- The notes and the outcome of some work. -/
structure Traced (α : Type) where
  notes : List Note
  outcome : Except Fault α

namespace Traced

/-- Work that only gives a result. -/
def done (a : α) : Traced α := ⟨[], .ok a⟩

/-- Goes on with the result, unless there is none. -/
def andThen (x : Traced α) (f : α → Traced β) : Traced β :=
  match x.outcome with
  | .ok a =>
    let y := f a
    ⟨x.notes ++ y.notes, y.outcome⟩
  | .error e => ⟨x.notes, .error e⟩

instance : Monad Traced where
  pure := done
  bind := andThen

/-- Work that fails. -/
def fail (f : Fault) : Traced α := ⟨[], .error f⟩

/-- Work that leaves no notes. -/
def of (x : Except Fault α) : Traced α := ⟨[], x⟩

instance : MonadLift (Except Fault) Traced := ⟨of⟩

/-- Leaves one note. -/
def note (level : Level) (text : String) : Traced Unit := ⟨[⟨level, text⟩], .ok ()⟩

/-- Does the work for each item in turn, up to the first fault. -/
def forEach (f : α → Traced β) : List α → Traced (List β)
  | [] => done []
  | a :: rest => do
    let b ← f a
    let bs ← forEach f rest
    return b :: bs

end Traced

end Flowscript
