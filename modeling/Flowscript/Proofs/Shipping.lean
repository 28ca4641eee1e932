-- The helpers that the scripts of a bundle call. The main file and the file
-- that installs triggers call helpers by name, and whether a helper goes with
-- the bundle is settled elsewhere, by the choices and by the triggers of the
-- plan. Whatever is called is declared, once in all files.
import Flowscript.Proofs.Credentials
import Flowscript.Proofs.Naming
import Flowscript.Proofs.Triggers
import Flowscript.Proofs.Vocabulary

namespace Flowscript

namespace Lexer

open Recipe (code)
open Text (lineFed)

/-! ## Functions of the main file -/

theorem lineTokens_declaration {n : PlannedNode} (hname : IsFunctionName n.functionName) :
    lineTokens (declaration n) = [.word functionWord, .word n.functionName.toList, .sign '(',
      .word "context".toList, .sign ')', .sign '\x7b'] :=
  (scans_line.mp (scans_declaration hname)).2

/-- The declaration of a node's function stands behind its comment. -/
theorem lines_build {n : PlannedNode} {c : Choices} {filled : Sheet}
    (h : (NodeFunction.build n c).outcome = .ok filled) :
    ∃ rest, filled.lines false = (NodeFunction.opening n).take 5 ++ declaration n :: rest := by
  obtain ⟨draft, body, facts, hdraft, hbody, hfacts, rfl, _, _⟩ := parts_of_build h
  obtain ⟨body', hbody', hitems⟩ := items_draft hdraft
  cases hbody.symm.trans hbody'
  obtain ⟨indent, hinner⟩ := innerItems_eq n body
  have hdeclaration : filledLines (Snippet.linesOr facts) (.ofText 0 (declaration n)) =
      [declaration n] := (filledLines_line ..).trans (print_left _)
  rw [lines_fillAll hitems, hinner, List.flatMap_cons, hdeclaration]
  exact ⟨_, rfl⟩

section

variable {g : Graph} {c : Choices} {p : Plan} {started : Moment} {main : String}

/-- The main file, split at the function of a node. What stands in front of the function ends outside
all brackets. -/
theorem split_main (hplan : (Plan.build g c).outcome = .ok p)
    (h : (Entry.text p started).outcome = .ok main) {n : PlannedNode} (hn : n ∈ p.nodes) :
    ∃ front sheet back names, (NodeFunction.build n p.choices).outcome = .ok sheet ∧
      Declares .outside (lineFed front) names .outside ∧
      main = Text.joinLines (front ++ (sheet.lines false ++ back)) ++ "\n" := by
  have hsound := Plan.sound_of_build hplan
  have hblank : Declares .outside (lineFed [""]) [] .outside := ⟨[], rfl, rfl⟩
  obtain ⟨sheets, hbuilt, rfl⟩ := text_eq_ok h
  obtain ⟨before, after, sheet, front, back, hnodes, rfl, hfront, hsheet⟩ := forall₂_split hbuilt hn
  have hentry := declares_entryLines fun n hn => hsound.isFunctionName n (hsound.order_subset n hn)
  have hbefore := declares_functions
    (fun m hm => hsound.isFunctionName m (by rw [hnodes]; exact List.mem_append_left _ hm)) hfront
  have hall := (((declares_header p started).append hentry).append hbefore).append hblank
  simp only [← Text.lineFed_append] at hall
  refine ⟨_, sheet, back.flatMap fun sheet => "" :: sheet.lines false, _, hsheet, hall, ?_⟩
  simp

/-- The main file declares the functions of all nodes. -/
theorem node_mem_functions (hplan : (Plan.build g c).outcome = .ok p)
    (h : (Entry.text p started).outcome = .ok main) {n : PlannedNode} (hn : n ∈ p.nodes) :
    n.functionName ∈ functions main := by
  have hname := (Plan.sound_of_build hplan).isFunctionName n hn
  obtain ⟨front, sheet, back, names, hsheet, hfront, rfl⟩ := split_main hplan h hn
  obtain ⟨rest, hlines⟩ := lines_build hsheet
  have hcomment : Declares .outside (lineFed ((NodeFunction.opening n).take 5)) [] .outside :=
    ⟨[], scans_opening n, rfl⟩
  have hopen := hfront.append hcomment
  rw [← Text.lineFed_append] at hopen
  have hmem := hopen.mem_functions (lineTokens_declaration hname) (rest ++ back)
  rw [String.ofList_toList] at hmem
  rw [hlines]
  simpa using hmem

/-- The tokens of the function of a node stand among those of the main file. -/
theorem tokens_text_infix (hplan : (Plan.build g c).outcome = .ok p)
    (h : (Entry.text p started).outcome = .ok main) {n : PlannedNode} (hn : n ∈ p.nodes) :
    ∃ text, (NodeFunction.text n p.choices).outcome = .ok text ∧ tokens text <:+: tokens main := by
  obtain ⟨front, sheet, back, names, hsheet, ⟨ts, hfront, _⟩, rfl⟩ := split_main hplan h hn
  obtain ⟨rest, hlines⟩ := lines_build hsheet
  refine ⟨sheet.render false, Traced.bind_eq_ok.mpr ⟨sheet, hsheet, rfl⟩, ?_⟩
  have hinside : Scans .start (lineFed (sheet.lines false)) (tokens (sheet.render false))
      (scan .start (lineFed (sheet.lines false))).1 := by
    unfold tokens Sheet.render
    rw [Text.toList_joinLines_feed (by rw [hlines]; simp)]
    rfl
  have hall := hfront.infix_scan hinside (lineFed back ++ "\n".toList)
  have hchars : (Text.joinLines (front ++ (sheet.lines false ++ back)) ++ "\n" ++ "\n").toList =
      lineFed front ++ (lineFed (sheet.lines false) ++ (lineFed back ++ "\n".toList)) := by
    rw [String.toList_append, Text.toList_joinLines_feed (by rw [hlines]; simp),
      Text.lineFed_append, Text.lineFed_append]
    simp
  show tokens (sheet.render false) <:+: (scan .start _).2
  rw [hchars]
  exact hall

end

/-- The main file declares the entry function. -/
theorem entry_mem_functions {p : Plan} {started : Moment} {main : String}
    (h : (Entry.text p started).outcome = .ok main) : Entry.functionName ∈ functions main := by
  obtain ⟨sheets, _, rfl⟩ := text_eq_ok h
  obtain ⟨rest, hsteps⟩ : ∃ rest, Entry.entrySteps p = code ([
      "/**",
      " * Main workflow execution function",
      " * Workflow: " ++ Text.remark p.graph.displayName,
      " */"] ++ ["function executeWorkflow(triggerData) \x7b"]) ++ rest := by
    unfold Entry.entrySteps
    simp only [List.append_assoc]
    exact ⟨_, rfl⟩
  have hcomment : Declares .outside (lineFed [
      "/**",
      " * Main workflow execution function",
      " * Workflow: " ++ Text.remark p.graph.displayName,
      " */"]) [] .outside := by
    apply StepsDeclare.ofCode
    exact .fixed rfl rfl rfl rfl (.fixed rfl rfl rfl rfl (.comment rfl (.fixed rfl rfl rfl rfl
      (.nil _))))
  have hline : lineTokens "function executeWorkflow(triggerData) \x7b" = [.word functionWord,
      .word Entry.functionName.toList, .sign '(', .word "triggerData".toList, .sign ')',
      .sign '\x7b'] := rfl
  have hfront := (declares_header p started).append hcomment
  rw [← Text.lineFed_append] at hfront
  unfold Entry.entryLines
  rw [hsteps, lines_takeAll_append, lines_takeAll_code]
  have hmem := hfront.mem_functions hline
  rw [String.ofList_toList] at hmem
  simpa using hmem _

/-! ## Functions of the file that installs triggers -/

/-- A function that stands behind an empty line and one line of comment. -/
theorem StepsDeclare.commented_mem_functions {before : List Step} {names : List (List Char)}
    {x y : String} {name : List Char} {us : List Token}
    (h : StepsDeclare .outside before names .outside)
    (hy : Scans ⟨.block, []⟩ (y.toList ++ ['\n']) [] ⟨.block, []⟩)
    (hx : lineTokens x = .word functionWord :: .word name :: .sign '(' :: us) (rest : List Step) :
    String.ofList name ∈ functions (((Sheet.empty 0).takeAll
      (before ++ (code ["", "/**", y, " */", x] ++ rest))).render false ++ "\n") := by
  have hclose : StepsDeclare .comment (code [" */"]) [] .outside := .fixed rfl rfl rfl rfl (.nil _)
  have hinside : StepsDeclare .comment (code [y, " */"]) [] .outside :=
    @StepsDeclare.line .comment .comment .outside y [" */"] [] [] rfl rfl ⟨[], hy, rfl⟩ hclose
  have hcomment : StepsDeclare .outside (code ["", "/**", y, " */"]) [] .outside :=
    .fixed rfl rfl rfl rfl (.fixed rfl rfl rfl rfl hinside)
  have hmem := (h.append hcomment).mem_functions hx rest
  rw [List.append_assoc] at hmem
  exact hmem

section

variable {p : Plan} {text : String}

theorem deleteTriggers_mem_functions (h : (Installer.text? p).outcome = .ok (some text)) :
    "deleteTriggers" ∈ functions text := by
  rcases installer_eq_ok h with ⟨_, hnone⟩ | ⟨_, each, heach, hsome⟩
  · cases hnone
  obtain ⟨rest, hdelete⟩ : ∃ rest, code [""] ++ Installer.deleteFunction = code [
      "",
      "/**",
      " * Remove every trigger that runs this workflow.",
      " */",
      "function deleteTriggers() \x7b"] ++ rest := ⟨_, rfl⟩
  have hremark : Scans ⟨.block, []⟩
      (" * Remove every trigger that runs this workflow.".toList ++ ['\n']) [] ⟨.block, []⟩ := rfl
  have hline : lineTokens "function deleteTriggers() \x7b" = [.word functionWord,
      .word deleteTriggers, .sign '(', .sign ')', .sign '\x7b'] := rfl
  have hmem := ((stepsDeclare_header p).before (stepsDeclare_installFunction
    heach.neutral)).commented_mem_functions hremark hline (rest ++
      if p.nodes.any fun n => n.kind? == some .webhookTrigger
      then code [""] ++ Installer.webhookFunctions else [])
  rw [Option.some.inj hsome, List.append_assoc (Installer.header p ++ _) (code [""]), hdelete,
    List.append_assoc, List.append_assoc (code _)]
  exact hmem

theorem handleWebhookRequest_mem_functions (h : (Installer.text? p).outcome = .ok (some text))
    (hwebhook : (p.nodes.any fun n => n.kind? == some .webhookTrigger) = true) :
    "handleWebhookRequest" ∈ functions text := by
  rcases installer_eq_ok h with ⟨_, hnone⟩ | ⟨_, each, heach, hsome⟩
  · cases hnone
  have hblank : StepsDeclare .outside (code [""]) [] .outside := .fixed rfl rfl rfl rfl (.nil _)
  obtain ⟨rest, hhandler⟩ : ∃ rest, code [""] ++ Installer.webhookFunctions = code [
      "",
      "/**",
      " * Run the workflow for an inbound request and answer with JSON.",
      " */",
      "function handleWebhookRequest(triggerData) \x7b"] ++ rest := ⟨_, rfl⟩
  have hremark : Scans ⟨.block, []⟩
      (" * Run the workflow for an inbound request and answer with JSON.".toList ++ ['\n']) []
      ⟨.block, []⟩ := rfl
  have hline : lineTokens "function handleWebhookRequest(triggerData) \x7b" = [.word functionWord,
      .word handleWebhookRequest, .sign '(', .word "triggerData".toList, .sign ')',
      .sign '\x7b'] := rfl
  have hbefore := (((stepsDeclare_header p).before (stepsDeclare_installFunction
    heach.neutral)).append hblank).append stepsDeclare_deleteFunction
  have hmem := hbefore.commented_mem_functions hremark hline rest
  rw [← hhandler] at hmem
  rw [Option.some.inj hsome, if_pos hwebhook]
  exact hmem

end

/-! ## Calls -/

/-- Outside of strings and comments the name stands in the script with an opening bracket behind it,
as it does where it is called. -/
def Calls (text name : String) : Prop := [.word name.toList, .sign '('] <:+: tokens text

instance (text name : String) : Decidable (Calls text name) :=
  inferInstanceAs (Decidable (_ <:+: _))

example : Calls "a = f (b); // g(b)" "f" := ⟨[.word ['a'], .sign '='], _, rfl⟩

theorem Calls.word_mem {text name : String} (h : Calls text name) :
    .word name.toList ∈ tokens text := h.subset List.mem_cons_self

/-- A node that requests an address calls the rate limiter, where it is wanted. -/
theorem calls_rateLimiter {n : PlannedNode} {c : Choices} {text : String}
    (hname : IsFunctionName n.functionName) (hkind : n.kind? = some .httpRequest)
    (hlimited : c.includeRateLimiting = true) (h : (NodeFunction.text n c).outcome = .ok text) :
    Calls text "checkRateLimit" := by
  obtain ⟨body, facts, hbody, hfacts, hready, htokens⟩ := tokens_text hname h
  have hslot : .slot .rateLimit ∈ body :=
    slot_mem (by rw [slots_body hbody, hkind]; exact List.mem_cons_self)
  have hlines := except_mapError_eq_ok.mp (hready .rateLimit hslot)
  obtain ⟨hoff, _⟩ | ⟨requests, window, _, _, _, hlines⟩ := Snippet.rateLimitLines_eq_ok hlines
  · rw [rateLimiting_of_facts hfacts, hlimited] at hoff
    cases hoff
  have hcall : [.word checkRateLimit, .sign '('] <:+:
      (scan .start "checkRateLimit(".toList).2 := ⟨[], [], rfl⟩
  have hsnippet : [.word checkRateLimit, .sign '('] <:+:
      stepTokens (Snippet.linesOr facts) (.slot .rateLimit) := by
    show _ <:+: (Snippet.linesOr facts .rateLimit).flatMap lineTokens
    rw [hlines]
    simp only [Snippet.limitCode, String.append_assoc, List.flatMap_cons, List.flatMap_nil,
      List.append_nil]
    exact (infix_lineTokens hcall _).trans (List.suffix_append ..).isInfix
  have hinside : stepTokens (Snippet.linesOr facts) (.slot .rateLimit) <:+:
      body.flatMap (stepTokens (Snippet.linesOr facts)) :=
    List.infix_of_mem_flatten (List.mem_map_of_mem hslot)
  unfold Calls
  rw [htokens]
  exact (hsnippet.trans hinside).trans (List.infix_append ..)

/-- The helpers that go with every bundle. -/
def standing : List String :=
  ["resolveTemplate", "resolveObject", "getContextValue", "safeJsonParse", "isAlreadyProcessed",
    "markProcessed", "executeWorkflow"]

/-- The helpers that go with some bundles. -/
def optional : List String := ["checkRateLimit", "deleteTriggers", "handleWebhookRequest"]

/-- The names by which a script calls a function that may stand in another one: those of the helpers,
and all that look like the name of a node's function. -/
def IsHelper (name : String) : Prop :=
  name ∈ standing ∨ name ∈ optional ∨ "execute_".toList <+: name.toList

instance (name : String) : Decidable (IsHelper name) :=
  inferInstanceAs (Decidable (_ ∨ _ ∨ _))

/-- What the main file can call: beside the helpers of every bundle the rate limiter, where it is
wanted, and the nodes of the plan. -/
theorem called_in_main {g : Graph} {c : Choices} {p : Plan} {started : Moment} {main : String}
    (hplan : (Plan.build g c).outcome = .ok p) (h : (Entry.text p started).outcome = .ok main)
    {name : String} (hhelper : IsHelper name) (hcall : Calls main name) :
    name ∈ standing ∨ (p.choices.includeRateLimiting = true ∧ name = "checkRateLimit") ∨
      ∃ n ∈ p.nodes, name = n.functionName := by
  rcases tokens_main hplan h _ hcall.word_mem with htame | ⟨other, hother, hsame⟩
  · obtain ⟨hmissing, hnode⟩ := Token.tame_word.mp htame
    rcases hhelper with hstanding | hoptional | hstart
    · exact Or.inl hstanding
    · right
      left
      simp only [optional, List.mem_cons, List.not_mem_nil, or_false] at hoptional
      cases hlimited : p.choices.includeRateLimiting with
      | true =>
        rw [hlimited] at hmissing
        rcases hoptional with rfl | rfl | rfl
        · exact ⟨rfl, rfl⟩
        · exact absurd (by decide) hmissing
        · exact absurd (by decide) hmissing
      | false =>
        rw [hlimited] at hmissing
        rcases hoptional with rfl | rfl | rfl <;> exact absurd (by decide) hmissing
    · exact absurd hstart hnode
  · obtain ⟨n, hn, rfl⟩ := List.mem_map.mp hother
    exact Or.inr (Or.inr ⟨n, hn, String.toList_injective (Token.word.inj hsame)⟩)

/-- What the file that installs triggers can call: beside the helpers of every bundle its own
functions. -/
theorem called_in_installer {p : Plan} {text : String}
    (h : (Installer.text? p).outcome = .ok (some text)) {name : String} (hhelper : IsHelper name)
    (hcall : Calls text name) : name ∈ standing ∨ name = "deleteTriggers" ∨
      (p.nodes.any fun n => n.kind? == some .webhookTrigger) = true ∧
        name = "handleWebhookRequest" := by
  obtain ⟨hunanswered, hnode⟩ := Token.tame_word.mp (tokens_installer h _ hcall.word_mem)
  rcases hhelper with hstanding | hoptional | hstart
  · exact Or.inl hstanding
  · right
    simp only [optional, List.mem_cons, List.not_mem_nil, or_false] at hoptional
    cases hwebhook : p.nodes.any fun n => n.kind? == some .webhookTrigger with
    | true =>
      rw [hwebhook] at hunanswered
      rcases hoptional with rfl | rfl | rfl
      · exact absurd (by decide) hunanswered
      · exact Or.inl rfl
      · exact Or.inr ⟨rfl, rfl⟩
    | false =>
      rw [hwebhook] at hunanswered
      rcases hoptional with rfl | rfl | rfl
      · exact absurd (by decide) hunanswered
      · exact Or.inl rfl
      · exact absurd (by decide) hunanswered
  · exact absurd hstart hnode

end Lexer

/-! ## Bundles -/

namespace Compiler

open Lexer (Calls IsHelper functions globals standing)

section

variable {k : Compiler} {p : Plan} {files : List BundleFile}

/-- The file of that name has the text of the main file. -/
theorem main_of_mem (h : (k.files p).outcome = .ok files) {f : BundleFile} (hf : f ∈ files)
    (hname : f.name = Bundle.mainFile) : (Entry.text p k.started).outcome = .ok f.content := by
  obtain ⟨main, written, hmain, _, rfl⟩ := files_eq_ok h
  rcases List.mem_append.mp hf with hf | hf
  · rcases List.mem_cons.mp hf with rfl | hf
    · exact hmain
    · have hmem : f.name ∈ ["RuntimeHelpers.js", "HttpHelpers.js", "StorageHelpers.js"] :=
        List.mem_map_of_mem (f := BundleFile.name) hf
      rw [hname] at hmem
      exact absurd hmem (by decide)
  · have hother : Installer.fileName ≠ Bundle.mainFile := by decide
    obtain ⟨text, _, rfl⟩ := List.mem_map.mp hf
    exact absurd hname hother

theorem functions_files_sublist (files : List BundleFile) :
    (files.flatMap fun f => functions f.content).Sublist
      (files.flatMap fun f => globals f.content) := by
  induction files with
  | nil => exact .slnil
  | cons f rest ih =>
    rw [List.flatMap_cons, List.flatMap_cons]
    exact (Lexer.functions_sublist _).append ih

/-- The rate limiter is in the general support file, where it is wanted. -/
theorem rateLimiter_shipped (h : (k.files p).outcome = .ok files)
    (hlimited : p.choices.includeRateLimiting = true) : ∃ d ∈ files,
      d.name = "RuntimeHelpers.js" ∧ "checkRateLimit" ∈ functions d.content := by
  obtain ⟨main, written, _, _, rfl⟩ := files_eq_ok h
  refine ⟨_, List.mem_append_left _ (.tail _ (.head _)), rfl, ?_⟩
  exact (Lexer.announces_generalLines p.choices).mem_functions _ (by simp [hlimited])

theorem standing_shipped (h : (k.files p).outcome = .ok files) {name : String}
    (hname : name ∈ standing) : ∃ d ∈ files, name ∈ functions d.content := by
  have hplace : ∀ name ∈ standing,
      name ∈ ["getContextValue", "resolveTemplate", "resolveObject", "safeJsonParse"] ∨
        name ∈ ["markProcessed", "isAlreadyProcessed"] ∨ name = Entry.functionName := by decide
  obtain ⟨main, written, hmain, _, rfl⟩ := files_eq_ok h
  rcases hplace name hname with hgeneral | hstorage | rfl
  · exact ⟨_, List.mem_append_left _ (.tail _ (.head _)),
      (Lexer.announces_generalLines p.choices).mem_functions _ (List.mem_append_left _ hgeneral)⟩
  · exact ⟨_, List.mem_append_left _ (.tail _ (.tail _ (.tail _ (.head _)))),
      Lexer.announces_storageLines.mem_functions _ hstorage⟩
  · exact ⟨_, List.mem_append_left _ (.head _), Lexer.entry_mem_functions hmain⟩

/-- Some file declares what is called. -/
theorem shipped_of_call {g : Graph} {c : Choices} (hplan : (Plan.build g c).outcome = .ok p)
    (h : (k.files p).outcome = .ok files) {f : BundleFile} (hf : f ∈ files)
    (hfile : f.name = Bundle.mainFile ∨ f.name = Installer.fileName) {name : String}
    (hhelper : IsHelper name) (hcall : Calls f.content name) : ∃ d ∈ files,
      name ∈ functions d.content ∧ (name = "checkRateLimit" → d.name = "RuntimeHelpers.js") := by
  have hstanding (hname : name ∈ standing) : ∃ d ∈ files,
      name ∈ functions d.content ∧ (name = "checkRateLimit" → d.name = "RuntimeHelpers.js") := by
    obtain ⟨d, hd, hmem⟩ := standing_shipped h hname
    refine ⟨d, hd, hmem, ?_⟩
    rintro rfl
    exact absurd hname (by decide)
  rcases hfile with hfile | hfile
  · have hmain := main_of_mem h hf hfile
    rcases Lexer.called_in_main hplan hmain hhelper hcall with hname | ⟨hlimited, rfl⟩ | ⟨n, hn, rfl⟩
    · exact hstanding hname
    · obtain ⟨d, hd, hname, hmem⟩ := rateLimiter_shipped h hlimited
      exact ⟨d, hd, hmem, fun _ => hname⟩
    · refine ⟨f, hf, Lexer.node_mem_functions hplan hmain hn, fun hname => ?_⟩
      have hfixed : "checkRateLimit" ∈ fixedNames true true true := by decide
      have hnode := (Plan.sound_of_build hplan).isFunctionName n hn
      rw [hname] at hnode
      exact absurd hnode (not_isFunctionName_of_mem_fixedNames hfixed)
  · have hinstaller := installer_of_mem h hf hfile
    rcases Lexer.called_in_installer hinstaller hhelper hcall with hname | rfl | ⟨hwebhook, rfl⟩
    · exact hstanding hname
    · exact ⟨f, hf, Lexer.deleteTriggers_mem_functions hinstaller,
        fun hname => absurd hname (by decide)⟩
    · exact ⟨f, hf, Lexer.handleWebhookRequest_mem_functions hinstaller hwebhook,
        fun hname => absurd hname (by decide)⟩

end

/-- However a graph is compiled, a helper that the main file or the file that installs triggers calls
is declared just once in all files of the bundle, and as a function. The rate limiter is called only
where the general support file declares it. -/
theorem every_helper_that_is_called_is_shipped_once {k : Compiler} {g : Graph} {o : Options}
    {j : Judgement} {b : Bundle} (h : k.Makes g o j b) {f : BundleFile} (hf : f ∈ b.files)
    (hfile : f.name = Bundle.mainFile ∨ f.name = Installer.fileName) {name : String}
    (hhelper : IsHelper name) (hcall : Calls f.content name) :
    (b.files.flatMap fun d => functions d.content).count name = 1 ∧
      (b.files.flatMap fun d => globals d.content).count name = 1 ∧
      (name = "checkRateLimit" →
        ∃ d ∈ b.files, d.name = "RuntimeHelpers.js" ∧ name ∈ functions d.content) := by
  obtain ⟨verdict, p, hmade⟩ := h.made
  obtain ⟨d, hd, hmem, hlimiter⟩ :=
    shipped_of_call hmade.planned hmade.written hf hfile hhelper hcall
  have hnodup := nodup_globals hmade.planned hmade.written
  have hsublist := functions_files_sublist b.files
  have hdeclared : name ∈ b.files.flatMap fun d => functions d.content :=
    List.mem_flatMap.mpr ⟨d, hd, hmem⟩
  refine ⟨?_, ?_, fun hname => ⟨d, hd, hlimiter hname, hmem⟩⟩
  · exact List.count_eq_one_of_mem (hnodup.sublist hsublist) hdeclared
  · exact List.count_eq_one_of_mem hnodup (hsublist.subset hdeclared)

/-- A request behind a webhook. -/
def webhookRequest : Graph := ⟨"w", "Request", none,
  [⟨"h", "trigger.webhook", []⟩, ⟨"r", "action.http.request", []⟩], [⟨"e", "h", "r"⟩]⟩

theorem a_rate_limiter_that_is_wanted_is_shipped_once :
    ∃ b f,
      (compile { started := ⟨2026, 1, 1, 0, 0, 0, 0, none⟩ } webhookRequest
        { includeRateLimiting := some true } .ask).result = .ok b ∧
      f ∈ b.files ∧ f.name = Bundle.mainFile ∧ Calls f.content "checkRateLimit" ∧
      (b.files.flatMap fun d => functions d.content).count "checkRateLimit" = 1 ∧
      ∃ d ∈ b.files, d.name = "RuntimeHelpers.js" ∧ "checkRateLimit" ∈ functions d.content := by
  have hrun : ∃ b p,
      (compile { started := ⟨2026, 1, 1, 0, 0, 0, 0, none⟩ } webhookRequest
        { includeRateLimiting := some true } .ask).result = .ok b ∧
      (Plan.build webhookRequest (Options.withDefaults { includeRateLimiting := some true }
        {})).outcome = .ok p ∧
      p.choices.includeRateLimiting = true ∧ (∃ f ∈ b.files, f.name = Bundle.mainFile) ∧
      ∃ n ∈ p.nodes, n.kind? = some .httpRequest :=
    ⟨_, _, rfl, rfl, rfl, ⟨_, .head _, rfl⟩, _, .tail _ (.head _), rfl⟩
  obtain ⟨b, p, hcompiled, hplan, hlimited, ⟨f, hf, hfile⟩, n, hn, hkind⟩ := hrun
  obtain ⟨verdict, p', hmade⟩ := Makes.made (Or.inl hcompiled)
  cases hplan.symm.trans hmade.planned
  have hname := (Plan.sound_of_build hplan).isFunctionName n hn
  obtain ⟨text, htext, hinside⟩ :=
    Lexer.tokens_text_infix hplan (main_of_mem hmade.written hf hfile) hn
  have hcall : Calls f.content "checkRateLimit" :=
    (Lexer.calls_rateLimiter hname hkind hlimited htext).trans hinside
  obtain ⟨hfunction, -, hlimiter⟩ := every_helper_that_is_called_is_shipped_once
    (Or.inl hcompiled) hf (Or.inl hfile) (by decide) hcall
  exact ⟨b, f, hcompiled, hf, hfile, hcall, hfunction, hlimiter rfl⟩

end Compiler

end Flowscript
