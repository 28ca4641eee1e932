-- Compiling a workflow into a bundle. The graph is read first, then the
-- options, then the verdict is asked for; the nodes are ordered before any
-- function is written. Compiling always ends with a report, which holds the
-- bundle or the reason why there is none.
import Flowscript.Bundle.Guide
import Flowscript.Bundle.Manifest
import Flowscript.Graph.Decode
import Flowscript.Support.Files
import Flowscript.Trigger.Installer
import Flowscript.Verdict.Structure

namespace Flowscript

/-- What compiling a workflow gives. -/
structure Bundle where
  files : List BundleFile
  manifest : Value
  requiredScopes : List Value
  instructions : String

namespace Bundle

/-- The name of the file that holds the entry function. -/
def mainFile : String := "Code.js"

/-- The file with the given name. -/
def file? (b : Bundle) (name : String) : Option BundleFile := b.files.find? fun f => f.name == name

/-- The number of characters in all files. -/
def size (b : Bundle) : Nat := b.files.foldl (fun total f => total + f.size) 0

end Bundle

/-- How a compilation ends: the notes, and the bundle or the reason of the failure. -/
structure Report where
  notes : List Note
  result : Except String Bundle

/-- What a compiler is set up with. -/
structure Compiler where
  settings : Settings := {}
  validator : Graph → Traced Verdict := Verdict.structural
  started : Moment

namespace Compiler

/-- What a caller says about the validity of a graph. -/
inductive Judgement where
  | ask
  | given (verdict : Verdict)
  | outside (data : Value)

/-- The verdict on a graph: the caller's, or else that of the validator. -/
def judge (k : Compiler) (g : Graph) : Judgement → Traced Verdict
  | .ask => k.validator g
  | .given verdict => return verdict
  | .outside data => Traced.of (Verdict.ofValue data)

/-- The code files of a plan. -/
def files (k : Compiler) (p : Plan) : Traced (List BundleFile) := do
  let main ← Entry.text p k.started
  let triggers ← Installer.text? p
  return [⟨Bundle.mainFile, main, .code, some "Main workflow execution"⟩] ++
    Support.files p.choices ++
    triggers.toList.map fun text =>
      ⟨Installer.fileName, text, .code, some "Trigger setup and webhook handlers"⟩

/-- The permissions of a bundle: those of the verdict, and mail where failures are told of. -/
def scopes (v : Verdict) (c : Choices) : List Value :=
  v.requiredScopes ++ if c.includeErrorHandling then [.text Scope.sendMail] else []

/-- Makes the bundle of a graph. -/
def bundle (k : Compiler) (g : Graph) (o : Options) (j : Judgement) : Traced Bundle := do
  let choices := o.withDefaults k.settings
  let verdict ← k.judge g j
  if !verdict.valid then Traced.fail (.rejected verdict.errors)
  else do
    let plan ← Plan.build g choices
    Traced.note .debug s!"Scheduled {plan.order.length} node(s) for '{g.displayName}'"
    let files ← k.files plan
    let (manifest, scopes) ←
      Manifest.build k.settings (some choices.timezone) (scopes verdict choices)
    let instructions ← Guide.build plan files
    return ⟨files, manifest, scopes, instructions⟩

/-- Reports on work that makes a bundle. -/
def report (k : Compiler) (work : Traced Bundle) : Report :=
  let opening : Note := ⟨.info, s!"Compilation started at {k.started.text}"⟩
  match work.outcome with
  | .ok b =>
    let closing : Note := ⟨.info, s!"Compilation finished: {b.files.length} file(s), " ++
      s!"{b.size} bytes, {b.requiredScopes.length} scope(s)"⟩
    ⟨opening :: work.notes ++ [closing], .ok b⟩
  | .error f =>
    let closing : Note := ⟨.error,
      if f.isExpected then s!"Compilation failed: {f.message}"
      else "Compilation failed with an unexpected error"⟩
    ⟨opening :: work.notes ++ [closing], .error f.report⟩

/-- Compiles a graph. -/
def compile (k : Compiler) (g : Graph) (o : Options) (j : Judgement) : Report :=
  k.report (k.bundle g o j)

/-- Compiles what describes a graph and options. -/
def compileValues (k : Compiler) (graph options : Value) (j : Judgement) : Report :=
  k.report do
    let g ← Traced.of (Graph.ofValue graph)
    let o ← Traced.of (Options.ofValue options)
    k.bundle g o j

end Compiler

end Flowscript
