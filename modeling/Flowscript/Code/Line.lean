-- Lines of generated code as data. A line is fixed text with expressions
-- between; an expression keeps the configuration value it carries and says
-- how that value is used when the script runs.
import Flowscript.Json.Printer
import Flowscript.Placeholder

namespace Flowscript

/-- An expression that carries a configuration value: a plain literal, a text that is resolved when
the script runs if it may hold placeholders, what the context has at the path that a value names, or
a value in which every text is resolved. -/
inductive Expr where
  | literal (v : Value)
  | ofText (v : Value)
  | contextValue (v : Value)
  | resolved (v : Value)

namespace Expr

/-- The value of an expression. -/
def value : Expr → Value
  | .literal v => v
  | .ofText v => v
  | .contextValue v => v
  | .resolved v => v

/-- Whether a text holds something that could open a placeholder. -/
def opensHole : List Char → Bool
  | [] => false
  | c :: rest =>
    ((c = '\x7b' || c = '$') && rest.head? == some '\x7b') || opensHole rest

/-- The text of a value, where null is empty. -/
def textOf : Value → String
  | .null => ""
  | v => v.plain

/-- The path that a value names: the inside of a lone placeholder, or the text itself. -/
def contextPath (v : Value) : String :=
  let s := textOf v
  match Placeholder.whole? s with
  | some h => String.ofList h.path
  | none => Text.trim s

/-- The code of an expression. -/
def code : Expr → String
  | .literal v => Json.literal v
  | .ofText v =>
    if opensHole (textOf v).toList then "resolveTemplate(" ++ Json.quote (textOf v) ++ ", context)"
    else Json.quote (textOf v)
  | .contextValue v => "getContextValue(context, " ++ Json.quote (contextPath v) ++ ")"
  | .resolved v => "resolveObject(" ++ Json.literal v ++ ", context)"

/-- A text that could hold a placeholder is resolved by a call, and any other stands as it is. -/
theorem code_ofText (v : Value) :
    code (.ofText v) = "resolveTemplate(" ++ Json.quote (textOf v) ++ ", context)" ∨
      ¬ opensHole (textOf v).toList = true ∧ code (.ofText v) = Json.quote (textOf v) := by
  by_cases h : opensHole (textOf v).toList = true
  · exact Or.inl (if_pos h)
  · exact Or.inr ⟨h, if_neg h⟩

/-- A value of a mapping: a lone placeholder keeps the type of what it names. -/
def ofValue : Value → Expr
  | .text s => if (Placeholder.whole? s).isSome then .contextValue (.text s) else .ofText (.text s)
  | .list items => .resolved (.list items)
  | .object fields => .resolved (.object fields)
  | v => .literal v

end Expr

/-- A part of a line. -/
inductive Part where
  | text (s : String)
  | expr (e : Expr)
  | number (n : Int)

/-- The code of a part. -/
def Part.code : Part → String
  | .text s => s
  | .expr e => e.code
  | .number n => toString n

/-- Whether a part can be printed. -/
def Part.isPrintable : Part → Bool
  | .text _ => true
  | .expr e => e.value.isPrintable
  | .number n => isShort n

instance : Coe String Part := ⟨.text⟩

instance : Coe Expr Part := ⟨.expr⟩

/-- The code of a line. -/
def lineCode (parts : List Part) : String := String.join (parts.map Part.code)

end Flowscript
