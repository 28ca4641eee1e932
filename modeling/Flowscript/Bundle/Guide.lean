-- The guide for whoever deploys a bundle: the script properties to set, and
-- numbered steps.
import Flowscript.Bundle.File
import Flowscript.Bundle.Secret
import Flowscript.Script.Entry

namespace Flowscript.Guide

/-- What the guide says where no property has to be set. -/
def noConfiguration : String := "No additional configuration is required."

/-- A text as code. -/
def mark (s : String) : String := "`" ++ s ++ "`"

/-- A step of the guide. -/
structure Task where
  title : String
  body : List String

/-- The line for a property and its readers. -/
def propertyLine (e : Secret.Entry) : String :=
  "- " ++ mark e.name.plain ++ " (used by " ++ Text.joinWith ", " (e.readers.map mark) ++ ")"

/-- The section on properties. -/
def propertySection (entries : List Secret.Entry) (errorHandling : Bool) : List String :=
  ["## Required Script Properties", ""] ++
  (if entries.isEmpty then [noConfiguration] else entries.map propertyLine) ++
  (if errorHandling then
    ["", "Optional: set " ++ mark Entry.emailProperty ++
      " to receive an email when a run fails."]
  else []) ++ [""]

/-- The line for a file. -/
def fileLine (f : BundleFile) : String :=
  "- " ++ mark f.name ++
    match f.description with
    | some d => if d = "" then "" else ": " ++ d
    | none => ""

/-- The steps of a deployment. -/
def tasks (files : List BundleFile) (entries : List Secret.Entry) (triggers webhook : Bool) :
    List Task :=
  [⟨"Upload Files",
    ["Create an Apps Script project and add these files:"] ++ files.map fileLine ++
    ["- `appsscript.json`: the manifest (enable \"Show appsscript.json\" in Project Settings)"]⟩,
  ⟨"Set Script Properties",
    if entries.isEmpty then [noConfiguration]
    else "In Project Settings > Script Properties add:" ::
      entries.map fun e => "- " ++ mark e.name.plain⟩] ++
  (if triggers then [⟨"Install Triggers", [
    "Run `installTriggers()` once from the editor and authorise the requested scopes.",
    "Running it again replaces the existing triggers."]⟩]
  else []) ++
  [⟨"Test Run", ["Run " ++ mark (Entry.functionName ++ "(\x7b\x7d)") ++
    " from the editor and check the execution log."]⟩] ++
  if webhook then [⟨"Publish as Web App", [
    "Deploy > New deployment > Web app.",
    "Copy the web app URL and use it as the webhook endpoint (POST or GET)."]⟩]
  else []

/-- The lines of the step with the given number. -/
def taskLines (t : Task) (number : Nat) : List String :=
  [s!"### {number}. {t.title}"] ++ t.body ++ [""]

/-- The lines at the top of the guide. -/
def titleLines (g : Graph) : List String :=
  ["# Deployment Instructions: " ++ g.displayName, ""] ++
  match g.description with
  | some d => if d = "" then [] else [d, ""]
  | none => []

/-- The steps for files of a plan. -/
def steps (p : Plan) (files : List BundleFile) (entries : List Secret.Entry) : List Task :=
  tasks files entries (!p.graph.triggerNodes.isEmpty)
    (p.nodes.any fun n => n.kind? == some .webhookTrigger)

/-- The guide for files and properties. -/
def text (p : Plan) (files : List BundleFile) (entries : List Secret.Entry) : String :=
  let lines := titleLines p.graph ++
    propertySection entries p.choices.includeErrorHandling ++ ["## Steps", ""] ++
    (steps p files entries).zipIdx.flatMap fun (t, place) => taskLines t (place + 1)
  Text.trimEnd (Text.joinLines lines) ++ "\n"

/-- The guide for files of a plan, which prints the names of all properties. -/
def build (p : Plan) (files : List BundleFile) : Traced String := do
  let entries ← Traced.of (Secret.ofPlan p)
  Traced.note .debug s!"Deployment doc: {entries.length} required propert(ies)"
  Value.requirePrintable (.list (entries.map Secret.Entry.name))
  return text p files entries

end Flowscript.Guide
