-- Access to the configuration of a node. A setting that is null or the empty
-- text counts as absent.
import Flowscript.Fault
import Flowscript.Text.Case

namespace Flowscript.Config

/-- A setting that is neither null nor the empty text. -/
def get? (config : Fields) (key : String) : Option Value :=
  match config.get? key with
  | none => none
  | some .null => none
  | some (.text "") => none
  | some v => some v

/-- A setting, or a default where it is absent. -/
def getD (config : Fields) (key : String) (default : Value) : Value :=
  (get? config key).getD default

/-- A setting, or a fixed text where it is absent. -/
def getText (config : Fields) (key default : String) : Value := getD config key (.text default)

/-- Refuses a setting that is no number; the refusal prints it. -/
def refuse (id key : String) (v : Value) : Except Fault α := do
  v.requirePrintable
  .error (.config id (.notANumber key v))

/-- A setting that has to be a number; a truth value is none. -/
def whole (id : String) (config : Fields) (key : String) (default : Int) : Except Fault Int :=
  let v := getD config key (.int default)
  match v with
  | .bool _ => refuse id key v
  | v => match v.toWhole with
    | .ok n => .ok n
    | .error .infinite => .error (.number .infinite)
    | .error _ => refuse id key v

/-- The texts that switch a setting on. -/
def onTexts : List String := ["1", "true", "yes", "on"]

/-- Whether a setting is switched on: by one of the texts, or by any other value that is set. -/
def flag (config : Fields) (key : String) : Bool :=
  match config.get? key with
  | some (.text s) => onTexts.contains (Text.lower (Text.trim s))
  | some v => v.isTruthy
  | none => false

end Flowscript.Config
