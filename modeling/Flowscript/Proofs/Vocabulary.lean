-- The words of the main file and of the file that installs triggers. Outside
-- of strings and comments the main file names no function of a node but those
-- of the plan, and of the helpers that not every bundle has only the rate
-- limiter, where it is wanted. The other file names none of these, but for
-- the functions that it declares itself.
import Flowscript.Proofs.Globals

namespace Flowscript.Lexer

open Entry (callLine callSteps entryLines entrySteps failureSteps handlerSteps header mailSteps
  narration nodeSteps)
open Recipe (code remark)
open Text (Unbroken lineFed)

/-! ## Lines and steps that keep a property -/

section

variable {P : Token → Prop}

/-- The lines lead from code to code, and all of their tokens have the property. -/
def Tells (P : Token → Prop) (ls : List String) : Prop :=
  ∃ ts, Scans .start (lineFed ls) ts .start ∧ ∀ t ∈ ts, P t

theorem Tells.append {ls ms : List String} (h : Tells P ls) (h' : Tells P ms) :
    Tells P (ls ++ ms) := by
  obtain ⟨ts, hscan, hts⟩ := h
  obtain ⟨us, hscan', hus⟩ := h'
  refine ⟨ts ++ us, ?_, List.forall_mem_append.mpr ⟨hts, hus⟩⟩
  rw [Text.lineFed_append]
  exact hscan.append hscan'

theorem tells_of_keeps {ls : List String} (h : ∀ l ∈ ls, Keeps P l) : Tells P ls := by
  refine ⟨_, scans_lineFed fun l hl => (h l hl).complete, fun t ht => ?_⟩
  obtain ⟨l, hl, ht⟩ := List.mem_flatMap.mp ht
  exact (h l hl).tokens t ht

theorem tells_blank : Tells P [""] :=
  tells_of_keeps (List.forall_mem_singleton.mpr ⟨rfl, List.forall_mem_nil _⟩)

/-- All tokens of a file have the property where its lines have it. -/
theorem Tells.tokens {ls : List String} (h : Tells P ls) :
    ∀ t ∈ tokens (Text.joinLines ls ++ "\n"), P t := by
  obtain ⟨ts, hscan, hts⟩ := h
  rw [hscan.tokens_eq]
  exact hts

/-- The lines that the steps write keep the property, whatever the indent is. -/
def StepsTell (P : Token → Prop) (steps : List Step) : Prop :=
  ∀ indent, Tells P (((Sheet.empty indent).takeAll steps).lines false)

theorem StepsTell.append {steps steps' : List Step} (h : StepsTell P steps)
    (h' : StepsTell P steps') : StepsTell P (steps ++ steps') := by
  intro indent
  rw [lines_takeAll_append]
  exact (h indent).append (h' _)

theorem stepsTell_of_keeps {steps : List Step}
    (h : ∀ parts, .line parts ∈ steps → Keeps P (lineCode parts)) : StepsTell P steps := by
  intro indent
  refine tells_of_keeps fun l hl => ?_
  obtain ⟨item, hitem, hl⟩ := List.mem_flatMap.mp hl
  cases item with
  | line i x =>
    obtain ⟨parts, hparts, rfl⟩ := (mem_takeAll hitem).resolve_left List.not_mem_nil
    exact (h parts hparts).print hl
  | slot i kind => cases hl

theorem stepsTell_nil : StepsTell P [] := stepsTell_of_keeps (by simp)

theorem stepsTell_deeper : StepsTell P [.deeper] := stepsTell_of_keeps (by simp)

theorem stepsTell_back : StepsTell P [.back] := stepsTell_of_keeps (by simp)

theorem stepsTell_code {ls : List String} (h : ∀ l ∈ ls, Keeps P l) : StepsTell P (code ls) := by
  refine stepsTell_of_keeps fun parts hparts => ?_
  obtain ⟨l, hl, he⟩ := List.mem_map.mp hparts
  cases he
  rw [lineCode_text]
  exact h l hl

theorem stepsTell_blank : StepsTell P (code [""]) :=
  stepsTell_code (List.forall_mem_singleton.mpr ⟨rfl, List.forall_mem_nil _⟩)

theorem stepsTell_flatMap {α : Type} {items : List α} {f : α → List Step}
    (h : ∀ a ∈ items, StepsTell P (f a)) : StepsTell P (items.flatMap f) := by
  induction items with
  | nil => exact stepsTell_nil
  | cons a rest ih =>
    rw [List.flatMap_cons]
    exact (h a (by simp)).append (ih fun b hb => h b (List.mem_cons_of_mem _ hb))

theorem stepsTell_remark {x : String} (h : Unbroken x) : StepsTell P [remark x] := by
  refine stepsTell_of_keeps fun parts hparts => ?_
  cases List.mem_singleton.mp hparts
  rw [lineCode_cons, lineCode_text]
  exact keeps_remark rfl h P

theorem stepsTell_remarks {xs : List String} (h : ∀ x ∈ xs, Unbroken x) :
    StepsTell P (xs.map remark) := by
  induction xs with
  | nil => exact stepsTell_nil
  | cons x rest ih =>
    obtain ⟨hx, hrest⟩ := List.forall_mem_cons.mp h
    exact (stepsTell_remark hx).append (ih hrest)

/-- Lines between the marks of a comment have no tokens, at any indent. -/
theorem stepsTell_comment {xs : List String}
    (h : ∀ x ∈ xs, Scans ⟨.block, []⟩ (x.toList ++ ['\n']) [] ⟨.block, []⟩) :
    StepsTell P (code ("/**" :: (xs ++ [" */"]))) := by
  intro indent
  have hopen : Scans .start ("/**".toList ++ ['\n']) [] ⟨.block, []⟩ := rfl
  have hclose : Scans ⟨.block, []⟩ (" */".toList ++ ['\n']) [] .start := rfl
  have hinside : Scans ⟨.block, []⟩
      (lineFed (xs.flatMap fun x => (Item.ofText indent x).print false)) [] ⟨.block, []⟩ := by
    induction xs with
    | nil => exact scans_nil _
    | cons x rest ih =>
      have hfirst := (h x (by simp)).print rfl rfl (if x = "" then 0 else indent)
      rw [List.flatMap_cons, Text.lineFed_append]
      exact hfirst.append (ih fun y hy => h y (List.mem_cons_of_mem _ hy))
  have hall := (hopen.print rfl rfl indent).append (hinside.append (hclose.print rfl rfl indent))
  refine ⟨[], ?_, List.forall_mem_nil _⟩
  rw [takeAll_code]
  show Scans _ (lineFed ((("/**" :: (xs ++ [" */"])).map (Item.ofText indent)).flatMap _)) _ _
  rw [List.flatMap_map, List.flatMap_cons, List.flatMap_append, List.flatMap_singleton,
    Text.lineFed_append, Text.lineFed_append]
  exact hall

/-- A comment, and the line behind it. -/
theorem stepsTell_opening {xs : List String} {l : String}
    (h : ∀ x ∈ xs, Scans ⟨.block, []⟩ (x.toList ++ ['\n']) [] ⟨.block, []⟩) (hl : Keeps P l) :
    StepsTell P (code ("/**" :: (xs ++ [" */", l]))) := by
  have hsplit : code ("/**" :: (xs ++ [" */", l])) =
      code ("/**" :: (xs ++ [" */"])) ++ code [l] := by
    simp [code]
  rw [hsplit]
  exact (stepsTell_comment h).append (stepsTell_code (List.forall_mem_singleton.mpr hl))

/-- Lines of code can be checked on their spellings. -/
theorem stepsTell_said {words : List (List Char)} (hloud : Loud words)
    (hP : ∀ t, Token.tame words t = true → P t) {ss : List Spelling} {ls : List String}
    (h : List.Forall₂ Said ss ls) (hs : ss.all (hears words .start) = true) :
    StepsTell P (code ls) :=
  stepsTell_code fun l hl => (tame_of_said hloud h hs l hl).mono hP

end

/-! ## The entry function -/

/-- The words of a main file: none that is missing, and no names of node functions but these. -/
def Speaks (limited : Bool) (names : List String) (t : Token) : Prop :=
  t.tame (missing limited) = true ∨ ∃ name ∈ names, t = .word name.toList

theorem loud_missing : Loud (missing false) := by decide

theorem missing_subset (limited : Bool) : missing limited ⊆ missing false := by
  cases limited <;> decide

theorem speaks_of_tame {limited : Bool} {names : List String} (t : Token)
    (h : t.tame (missing false) = true) : Speaks limited names t :=
  Or.inl (Token.tame_subset (missing_subset limited) h)

section

variable {limited : Bool} {names : List String} {c : Choices}

theorem stepsTell_spelled {ss : List Spelling} {ls : List String} (h : List.Forall₂ Said ss ls)
    (hs : ss.all (hears (missing false) .start) = true) :
    StepsTell (Speaks limited names) (code ls) :=
  stepsTell_said loud_missing speaks_of_tame h hs

/-- A line with one quoted value. -/
theorem stepsTell_quoting {cs ds : List Char} {x : String}
    (h : hears (missing false) .start [some cs, none, some ds] = true) :
    StepsTell (Speaks limited names)
      (code [String.ofList cs ++ Json.quote x ++ String.ofList ds]) := by
  have hline : Said [some cs, none, some ds]
      (String.ofList cs ++ Json.quote x ++ String.ofList ds) := by
    rw [String.append_assoc]
    exact .text (.gap (spoken_quote x) .last)
  exact stepsTell_spelled (.cons hline .nil) (by simp [h])

theorem stepsTell_narration {P : Token → Prop} {lines : List String}
    (h : StepsTell P (code lines)) : StepsTell P (narration c lines) := by
  unfold narration
  split
  · exact h
  · exact stepsTell_nil

/-- The name in a call is one word. -/
theorem scans_callLine {n : PlannedNode} (hname : IsFunctionName n.functionName) :
    Scans .start ((callLine n).toList ++ ['\n']) [.word "context".toList, .sign '.',
      .word "results".toList, .sign '[', .quoted (Json.quote n.id).toList, .sign ']', .sign '=',
      .word n.functionName.toList, .sign '(', .word "context".toList, .sign ')', .sign ';']
      .start := by
  have hopen : Scans .start "context.results[".toList
      [.word "context".toList, .sign '.', .word "results".toList, .sign '['] .start := rfl
  have hbetween : Scans .start "] = ".toList [.sign ']', .sign '='] .start := rfl
  have hrest : Scans .start ('(' :: ("context);".toList ++ ['\n']))
      [.sign '(', .word "context".toList, .sign ')', .sign ';'] .start := rfl
  have hsplit : "(context);".toList = '(' :: "context);".toList := rfl
  rw [callLine_eq]
  simp only [String.toList_append, List.append_assoc, hsplit, List.cons_append]
  exact hopen.append ((scans_quote n.id).append (hbetween.append (scans_functionName hname hrest)))

theorem keeps_callLine {n : PlannedNode} (hname : IsFunctionName n.functionName)
    (hmem : n.functionName ∈ names) : Keeps (Speaks limited names) (callLine n) := by
  have hfixed : ∀ t, Token.tame (missing false) t = true → Speaks limited names t := speaks_of_tame
  apply keeps_of_scans (scans_callLine hname)
  simp only [List.forall_mem_cons]
  exact ⟨hfixed _ rfl, hfixed _ rfl, hfixed _ rfl, hfixed _ rfl, hfixed _ rfl, hfixed _ rfl,
    hfixed _ rfl, Or.inr ⟨_, hmem, rfl⟩, hfixed _ rfl, hfixed _ rfl, hfixed _ rfl, hfixed _ rfl,
    List.forall_mem_nil _⟩

theorem stepsTell_callSteps {n : PlannedNode} (hname : IsFunctionName n.functionName)
    (hmem : n.functionName ∈ names) : StepsTell (Speaks limited names) (callSteps n c) := by
  refine .append (stepsTell_code ?_) (stepsTell_narration ?_)
  · exact List.forall_mem_singleton.mpr (keeps_callLine hname hmem)
  · exact stepsTell_quoting rfl

theorem stepsTell_failureSteps (n : PlannedNode) :
    StepsTell (Speaks limited names) (failureSteps n) := by
  refine .append ?_ ?_
  · simp only [String.append_assoc]
    exact stepsTell_spelled
      (by
        repeat' first
          | with_reducible apply Said.gap (spoken_quote _)
          | with_reducible apply Said.text
          | constructor)
      rfl
  · unfold Entry.aftermathSteps
    split
    · exact stepsTell_remark (by decide)
    · refine (stepsTell_remark (by decide)).append ?_
      exact stepsTell_spelled (by repeat' constructor) rfl

theorem stepsTell_nodeSteps {n : PlannedNode} (hname : IsFunctionName n.functionName)
    (hmem : n.functionName ∈ names) : StepsTell (Speaks limited names) (nodeSteps n c) := by
  have hremark : Unbroken ("Node: " ++ Text.remark n.id ++ " (" ++ Text.remark n.tag ++ ")") :=
    (((Unbroken.append (by decide) (unbroken_remark _)).append (by decide)).append
      (unbroken_remark _)).append (by decide)
  have hcall : StepsTell (Speaks limited names) (callSteps n c) := stepsTell_callSteps hname hmem
  have hfailure : StepsTell (Speaks limited names) (failureSteps n) := stepsTell_failureSteps n
  unfold nodeSteps
  refine .append (.append (stepsTell_remark hremark) (stepsTell_narration ?_)) ?_
  · exact stepsTell_quoting rfl
  · split
    · repeat' first
        | with_reducible exact hcall
        | with_reducible exact hfailure
        | with_reducible exact stepsTell_deeper
        | with_reducible exact stepsTell_back
        | with_reducible apply StepsTell.append
      all_goals
        exact stepsTell_spelled (by repeat' constructor) rfl
    · exact hcall

theorem stepsTell_mailSteps (p : Plan) : StepsTell (Speaks limited names) (mailSteps p) := by
  have hremark : StepsTell (Speaks limited names) [remark "Operator notification"] :=
    stepsTell_remark (by decide)
  unfold mailSteps
  simp only [String.append_assoc]
  repeat' first
    | with_reducible exact hremark
    | with_reducible exact stepsTell_deeper
    | with_reducible exact stepsTell_back
    | with_reducible apply StepsTell.append
  all_goals
    exact stepsTell_spelled
      (by
        repeat' first
          | with_reducible apply Said.gap (spoken_quote _)
          | with_reducible apply Said.text
          | constructor)
      rfl

theorem stepsTell_handlerSteps (p : Plan) :
    StepsTell (Speaks limited names) (handlerSteps p) := by
  unfold handlerSteps
  refine .append (.append ?_ ?_) ?_
  · exact stepsTell_spelled (by repeat' constructor) rfl
  · split
    · exact stepsTell_mailSteps p
    · exact stepsTell_nil
  · exact stepsTell_spelled (by repeat' constructor) rfl

theorem stepsTell_entrySteps {p : Plan} (hnames : ∀ n ∈ p.order, IsFunctionName n.functionName)
    (hmem : ∀ n ∈ p.order, n.functionName ∈ names) :
    StepsTell (Speaks limited names) (entrySteps p) := by
  have hname : "function " ++ Entry.functionName ++ "(triggerData) \x7b" =
      "function executeWorkflow(triggerData) \x7b" := rfl
  have hopening : StepsTell (Speaks limited names) (code [
      "/**",
      " * Main workflow execution function",
      " * Workflow: " ++ Text.remark p.graph.displayName,
      " */",
      "function executeWorkflow(triggerData) \x7b"]) := by
    have hinside : ∀ x ∈ [" * Main workflow execution function",
        " * Workflow: " ++ Text.remark p.graph.displayName],
        Scans ⟨.block, []⟩ (x.toList ++ ['\n']) [] ⟨.block, []⟩ :=
      List.forall_mem_cons.mpr ⟨rfl, List.forall_mem_singleton.mpr (scans_comment rfl _)⟩
    have hline : Tame (missing false) "function executeWorkflow(triggerData) \x7b" :=
      Said.last.tame loud_missing rfl
    have hall := stepsTell_opening hinside (hline.mono (@speaks_of_tame limited names))
    exact hall
  have hcalls : StepsTell (Speaks limited names)
      (p.order.flatMap fun n => code [""] ++ nodeSteps n p.choices) := by
    exact stepsTell_flatMap fun n hn =>
      stepsTell_blank.append (stepsTell_nodeSteps (hnames n hn) (hmem n hn))
  have hnone : StepsTell (Speaks limited names)
      (if p.order.isEmpty then [remark "No nodes to execute"] else []) := by
    split
    · exact stepsTell_remark (by decide)
    · exact stepsTell_nil
  have hhandler : StepsTell (Speaks limited names) (handlerSteps p) := stepsTell_handlerSteps p
  unfold entrySteps
  simp only [hname]
  repeat' first
    | with_reducible exact hopening
    | with_reducible exact hcalls
    | with_reducible exact hnone
    | with_reducible exact hhandler
    | with_reducible exact stepsTell_deeper
    | with_reducible exact stepsTell_back
    | with_reducible apply stepsTell_narration
    | with_reducible apply StepsTell.append
  all_goals
    exact stepsTell_spelled (by repeat' constructor) rfl

/-! ## The main file -/

theorem tells_header (p : Plan) (started : Moment) {P : Token → Prop} :
    Tells P (header p started) := by
  have hstarted : Scans ⟨.block, []⟩ ((" * Generated: " ++ started.text).toList ++ ['\n']) []
      ⟨.block, []⟩ := by
    have hopen : Scans ⟨.block, []⟩ " * Generated: ".toList [] ⟨.block, []⟩ := rfl
    exact (hopen.joined (scans_inert_block (inert_moment started))).append rfl
  have hinside : ∀ x ∈ (header p started).tail.take 10,
      Scans ⟨.block, []⟩ (x.toList ++ ['\n']) [] ⟨.block, []⟩ := by
    simp only [header, List.tail_cons, List.take, List.forall_mem_cons]
    exact ⟨scans_comment rfl _, scans_comment rfl _, rfl, scans_comment rfl _, scans_comment rfl _,
      scans_comment rfl _, hstarted, rfl, rfl, rfl, List.forall_mem_nil _⟩
  have hcomment : Tells P ("/**" :: ((header p started).tail.take 10 ++ [" */"])) := by
    have hall : Tells P _ := stepsTell_comment hinside 0
    rwa [lines_takeAll_code] at hall
  exact hcomment.append tells_blank

theorem missing_subset_foreign (limited saves : Bool) (k : Option Kind) :
    missing limited ⊆ foreign saves k := by
  refine List.Subset.trans (missing_subset limited) ?_
  cases k with
  | none => cases saves <;> decide
  | some k => cases k <;> cases saves <;> decide

/-- The function of a node calls no helper that is missing, and no node. -/
theorem tells_build {n : PlannedNode} {c : Choices} {filled : Sheet}
    (hname : IsFunctionName n.functionName) (hmem : n.functionName ∈ names)
    (h : (NodeFunction.build n c).outcome = .ok filled) :
    Tells (Speaks c.includeRateLimiting names) (filled.lines false) := by
  obtain ⟨draft, body, facts, hdraft, hbody, hfacts, rfl, hready, -⟩ := parts_of_build h
  obtain ⟨body', hbody', hitems⟩ := items_draft hdraft
  cases hbody.symm.trans hbody'
  have hfixed : ∀ t, Token.tame (missing false) t = true →
      Speaks c.includeRateLimiting names t := speaks_of_tame
  have hopen : Keeps (Speaks c.includeRateLimiting names) (declaration n) := by
    apply keeps_of_scans (scans_declaration hname)
    simp only [List.forall_mem_cons]
    exact ⟨hfixed _ rfl, Or.inr ⟨_, hmem, rfl⟩, hfixed _ rfl, hfixed _ rfl, hfixed _ rfl,
      hfixed _ rfl, List.forall_mem_nil _⟩
  have hcomment : Tells (Speaks c.includeRateLimiting names) ((NodeFunction.opening n).take 5) :=
    ⟨[], scans_opening n, List.forall_mem_nil _⟩
  rw [lines_fillAll hitems]
  refine hcomment.append (tells_of_keeps (keeps_innerItems hopen ?_ ?_ ?_))
  · exact fun parts hparts => (tame_body hbody hparts).mono fun t ht =>
      Or.inl (Token.tame_subset (missing_subset_foreign ..) ht)
  · exact ⟨rfl, List.forall_mem_singleton.mpr (hfixed _ rfl)⟩
  · intro indent kind hslot l hl
    have hsnippet := tame_snippet (usual_of_facts hfacts) (ready_slot hready hitems hslot) l hl
    rw [rateLimiting_of_facts hfacts] at hsnippet
    exact hsnippet.mono fun t ht => Or.inl (Token.tame_subset (List.subset_append_right ..) ht)

theorem tells_functions {nodes : List PlannedNode} {functions : List Sheet}
    (hnames : ∀ n ∈ nodes, IsFunctionName n.functionName)
    (hmem : ∀ n ∈ nodes, n.functionName ∈ names)
    (h : List.Forall₂ (fun n sheet => (NodeFunction.build n c).outcome = .ok sheet) nodes
      functions) :
    Tells (Speaks c.includeRateLimiting names)
      (functions.flatMap fun sheet => "" :: sheet.lines false) := by
  induction h with
  | nil => exact tells_of_keeps (List.forall_mem_nil _)
  | @cons n sheet rest sheets hsheet _ ih =>
    have hfirst := tells_blank.append (tells_build (hnames n (by simp)) (hmem n (by simp)) hsheet)
    rw [List.flatMap_cons]
    exact hfirst.append (ih (fun m hm => hnames m (List.mem_cons_of_mem _ hm))
      fun m hm => hmem m (List.mem_cons_of_mem _ hm))

end

/-- The words of a main file. -/
theorem tokens_main {g : Graph} {c : Choices} {p : Plan} {started : Moment} {main : String}
    (hplan : (Plan.build g c).outcome = .ok p) (h : (Entry.text p started).outcome = .ok main) :
    ∀ t ∈ tokens main,
      Speaks p.choices.includeRateLimiting (p.nodes.map PlannedNode.functionName) t := by
  have hsound := Plan.sound_of_build hplan
  have hnames : ∀ n ∈ p.nodes, n.functionName ∈ p.nodes.map PlannedNode.functionName :=
    fun n hn => List.mem_map_of_mem hn
  obtain ⟨functions, hbuilt, rfl⟩ := text_eq_ok h
  have hentry : Tells (Speaks p.choices.includeRateLimiting (p.nodes.map PlannedNode.functionName))
      (entryLines p) := stepsTell_entrySteps
    (fun n hn => hsound.isFunctionName n (hsound.order_subset n hn))
    (fun n hn => hnames n (hsound.order_subset n hn)) 0
  have hfunctions := tells_functions hsound.isFunctionName hnames hbuilt
  exact (((tells_header p started).append hentry).append hfunctions).tokens

/-! ## The file that installs triggers -/

open Installer (clockLine deleteFunction installFunction installSteps pollingSteps webhookFunctions)

/-- The helpers that the file does not name, where it answers requests or not. -/
def unanswered (webhook : Bool) : List (List Char) :=
  if webhook then [checkRateLimit] else [checkRateLimit, handleWebhookRequest]

/-- The words of such a file: none that is unanswered, and no name of a node's function. -/
abbrev Restrained (webhook : Bool) (t : Token) : Prop := t.tame (unanswered webhook) = true

theorem loud_unanswered (webhook : Bool) : Loud (unanswered webhook) := by
  cases webhook <;> decide

section

variable {webhook : Bool}

theorem restrained_of_tame (t : Token) (h : t.tame (unanswered false) = true) :
    Restrained webhook t := by
  refine Token.tame_subset ?_ h
  cases webhook <;> decide

theorem stepsTell_plain {ss : List Spelling} {ls : List String} (h : List.Forall₂ Said ss ls)
    (hs : ss.all (hears (unanswered false) .start) = true) :
    StepsTell (Restrained webhook) (code ls) :=
  stepsTell_said (loud_unanswered false) restrained_of_tame h hs

/-- The first lines of a function with one line of comment. -/
theorem stepsTell_fixedOpening {cs ds : List Char}
    (hcs : scan ⟨.block, []⟩ (cs ++ ['\n']) = (⟨.block, []⟩, []))
    (hds : hears (unanswered webhook) .start [some ds] = true) :
    StepsTell (Restrained webhook) (code ["/**", String.ofList cs, " */", String.ofList ds]) := by
  have hinside : ∀ x ∈ [String.ofList cs],
      Scans ⟨.block, []⟩ (x.toList ++ ['\n']) [] ⟨.block, []⟩ := by
    rw [List.forall_mem_singleton, String.toList_ofList]
    exact hcs
  have hline : Tame (unanswered webhook) (String.ofList ds) :=
    Said.last.tame (loud_unanswered webhook) hds
  have hall := stepsTell_opening hinside hline
  exact hall

/-- In the statement that makes a clock trigger, only the calls that set it up have to be looked
at. -/
theorem stepsTell_clockLine_of_said {chain : String} {s : Spelling}
    (h : Said s (chain ++ ".create();")) (hs : hears (unanswered false) .start s = true) :
    StepsTell (Restrained webhook) (code [clockLine chain]) := by
  have hline : Said (some "ScriptApp.newTrigger(".toList :: none ::
      some ").timeBased().".toList :: s) (clockLine chain) := by
    unfold clockLine
    rw [String.append_assoc, String.append_assoc, String.append_assoc]
    exact .text (.gap (spoken_quote _) (.text h))
  have hstart : hears (unanswered false) .start (some "ScriptApp.newTrigger(".toList :: none ::
      some ").timeBased().".toList :: s) = hears (unanswered false) .start s := rfl
  exact stepsTell_plain (.cons hline .nil) (by rw [List.all_cons, hstart, hs]; rfl)

theorem stepsTell_clockLine (timing : Timing) :
    StepsTell (Restrained webhook) (code [clockLine timing.chain]) := by
  have hcall {start : List Char} (n : Int) : Said [some start, none, some ")".toList,
      some ".create();".toList] (String.ofList start ++ toString n ++ ")" ++ ".create();") := by
    rw [String.append_assoc, String.append_assoc]
    exact .text (.gap (spoken_int n) (.text .last))
  have htime {start : List Char} (hour minute : Int) : Said [some start, none,
      some ").nearMinute(".toList, none, some ")".toList, some ".create();".toList]
      (String.ofList start ++ toString hour ++ ").nearMinute(" ++ toString minute ++ ")" ++
        ".create();") := by
    rw [String.append_assoc, String.append_assoc, String.append_assoc, String.append_assoc]
    exact .text (.gap (spoken_int hour) (.text (.gap (spoken_int minute) (.text .last))))
  cases timing with
  | everyMinutes n => exact stepsTell_clockLine_of_said (hcall n) rfl
  | everyHours n => exact stepsTell_clockLine_of_said (hcall n) rfl
  | everyDay => exact stepsTell_clockLine_of_said (.text .last) rfl
  | everyWeek => exact stepsTell_clockLine_of_said (.text .last) rfl
  | dailyAt hour minute => exact stepsTell_clockLine_of_said (htime hour minute) rfl
  | weeklyAt day hour minute =>
    have hday : "onWeekDay(ScriptApp.WeekDay." ++ day.name ++ ").atHour(" =
        String.ofList ("onWeekDay(ScriptApp.WeekDay.".toList ++ day.name.toList ++
          ").atHour(".toList) := by
      simp only [← String.toList_append, String.ofList_toList]
    have hchain : (Timing.weeklyAt day hour minute).chain =
        "onWeekDay(ScriptApp.WeekDay." ++ day.name ++ ").atHour(" ++ toString hour ++
          ").nearMinute(" ++ toString minute ++ ")" := rfl
    rw [hchain, hday]
    refine stepsTell_clockLine_of_said (htime hour minute) ?_
    cases day <;> rfl

theorem stepsTell_pollingSteps {n : PlannedNode} {source : String} (hsource : Unbroken source)
    {steps : List Step} (h : (pollingSteps n source).outcome = .ok steps) :
    StepsTell (Restrained webhook) steps := by
  obtain ⟨minutes, _, h⟩ := Traced.bind_eq_ok.mp h
  cases h
  refine .append (stepsTell_remark ?_) (stepsTell_clockLine _)
  exact (((((unbroken_remark n.id).append (by decide)).append hsource).append (by decide)).append
    (inert_int minutes).unbroken).append (by decide)

theorem stepsTell_installSteps {n : PlannedNode} {steps : List Step}
    (h : (installSteps n).outcome = .ok steps) : StepsTell (Restrained webhook) steps := by
  unfold installSteps at h
  split at h
  · obtain ⟨schedule, _, h⟩ := Traced.bind_eq_ok.mp h
    obtain ⟨found, _, h⟩ := Traced.bind_eq_ok.mp h
    cases h
    exact .append (stepsTell_remarks (unbroken_clockRemarks n found)) (stepsTell_clockLine _)
  · exact stepsTell_pollingSteps (by decide) h
  · exact stepsTell_pollingSteps (by decide) h
  · cases h
    refine .append (stepsTell_remark ((unbroken_remark n.id).append (by decide))) ?_
    exact stepsTell_plain (by repeat' constructor) rfl
  · cases h
    exact stepsTell_remark
      (((unbroken_remark n.id).append (by decide)).append (unbroken_remark n.tag))

theorem stepsTell_installFunction {each : List (List Step)} (h : Installs each) :
    StepsTell (Restrained webhook) (installFunction each) := by
  have hopening : StepsTell (Restrained webhook) (code [
      "/**",
      " * Install all triggers for this workflow.  Safe to run repeatedly.",
      " */",
      "function installTriggers() \x7b"]) := by
    cases webhook <;> exact stepsTell_fixedOpening rfl rfl
  have heach : StepsTell (Restrained webhook) (each.flatMap fun steps => code [""] ++ steps) := by
    refine stepsTell_flatMap fun steps hsteps => stepsTell_blank.append ?_
    obtain ⟨n, hn⟩ := h steps hsteps
    exact stepsTell_installSteps hn
  unfold installFunction
  repeat' first
    | with_reducible exact hopening
    | with_reducible exact heach
    | with_reducible exact stepsTell_deeper
    | with_reducible exact stepsTell_back
    | with_reducible apply StepsTell.append
  all_goals exact stepsTell_plain (by repeat' constructor) rfl

theorem stepsTell_deleteFunction : StepsTell (Restrained webhook) deleteFunction := by
  have hopening : StepsTell (Restrained webhook) (code [
      "/**",
      " * Remove every trigger that runs this workflow.",
      " */",
      "function deleteTriggers() \x7b"]) := by
    cases webhook <;> exact stepsTell_fixedOpening rfl rfl
  unfold deleteFunction
  simp only [String.append_assoc]
  repeat' first
    | with_reducible exact hopening
    | with_reducible exact stepsTell_deeper
    | with_reducible exact stepsTell_back
    | with_reducible apply StepsTell.append
  all_goals
    exact stepsTell_plain
      (by
        repeat' first
          | with_reducible apply Said.gap (spoken_quote _)
          | with_reducible apply Said.text
          | constructor)
      rfl

/-- The functions that answer requests name one of their own. -/
theorem stepsTell_webhookFunctions : StepsTell (Restrained true) webhookFunctions := by
  have hopening : StepsTell (Restrained true) (code [
      "/**",
      " * Run the workflow for an inbound request and answer with JSON.",
      " */",
      "function handleWebhookRequest(triggerData) \x7b"]) :=
    stepsTell_fixedOpening rfl rfl
  have hname : "const result = " ++ Entry.functionName ++ "(triggerData);" =
      "const result = executeWorkflow(triggerData);" := rfl
  unfold webhookFunctions
  simp only [hname]
  repeat' first
    | with_reducible exact hopening
    | with_reducible exact stepsTell_deeper
    | with_reducible exact stepsTell_back
    | with_reducible apply StepsTell.append
  all_goals
    exact stepsTell_said (loud_unanswered true) (fun _ ht => ht) (by repeat' constructor)
      rfl

theorem stepsTell_header (p : Plan) {P : Token → Prop} : StepsTell P (Installer.header p) := by
  have hinside : ∀ x ∈ [" * Trigger setup and management",
      " * Workflow: " ++ Text.remark p.graph.displayName],
      Scans ⟨.block, []⟩ (x.toList ++ ['\n']) [] ⟨.block, []⟩ :=
    List.forall_mem_cons.mpr ⟨rfl, List.forall_mem_singleton.mpr (scans_comment rfl _)⟩
  have hblank : Keeps P "" := ⟨rfl, List.forall_mem_nil _⟩
  have hall := stepsTell_opening hinside hblank
  exact hall

end

/-- The words of a file that installs triggers. -/
theorem tokens_installer {p : Plan} {text : String}
    (h : (Installer.text? p).outcome = .ok (some text)) :
    ∀ t ∈ tokens text, Restrained (p.nodes.any fun n => n.kind? == some .webhookTrigger) t := by
  rcases installer_eq_ok h with ⟨_, hnone⟩ | ⟨_, each, heach, hsome⟩
  · cases hnone
  have hwebhook (webhook : Bool) : StepsTell (Restrained webhook)
      (if webhook then code [""] ++ webhookFunctions else []) := by
    cases webhook with
    | false => exact stepsTell_nil
    | true => exact stepsTell_blank.append stepsTell_webhookFunctions
  have hall := ((((stepsTell_header p).append (stepsTell_installFunction heach)).append
    stepsTell_blank).append stepsTell_deleteFunction).append (hwebhook
      (p.nodes.any fun n => n.kind? == some .webhookTrigger))
  rw [Option.some.inj hsome]
  exact (hall 0).tokens

end Flowscript.Lexer
