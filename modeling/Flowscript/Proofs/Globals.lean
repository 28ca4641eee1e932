-- The names that the scripts of a bundle declare. The main file declares the
-- entry function and the functions of the nodes, the file that installs
-- triggers and the support files have fixed names.
import Flowscript.Proofs.Closure
import Flowscript.Proofs.Declarations

namespace Flowscript

namespace Lexer

open Recipe (code)
open Text (lineFed)

/-! ## The main file -/

theorem scans_inert_block {x : String} (h : Inert x) :
    Scans ⟨.block, []⟩ x.toList [] ⟨.block, []⟩ := by
  unfold Inert at h
  generalize x.toList = cs at h
  induction cs with
  | nil => exact scans_nil _
  | cons c cs ih =>
    have hstar : c ≠ '*' := by
      rintro rfl
      cases h '*' (by simp)
    have hafter : Cursor.after ⟨.block, []⟩ c = ⟨.block, []⟩ := by
      simp [Cursor.after, Mode.after, Cursor.heldAfter, hstar]
    refine scans_cons.mpr ⟨[], ?_, rfl⟩
    rw [hafter]
    exact ih fun d hd => h d (List.mem_cons_of_mem _ hd)

theorem declares_header (p : Plan) (started : Moment) :
    Declares .outside (lineFed (Entry.header p started)) [] .outside := by
  have hstarted : Declares .comment ((" * Generated: " ++ started.text).toList ++ ['\n']) []
      .comment := by
    have hopen : Scans ⟨.block, []⟩ " * Generated: ".toList [] ⟨.block, []⟩ := rfl
    exact ⟨[], (hopen.joined (scans_inert_block (inert_moment started))).append rfl, rfl⟩
  apply StepsDeclare.ofCode
  unfold Entry.header
  refine .fixed rfl rfl rfl rfl (.comment rfl (.comment rfl (.fixed rfl rfl rfl rfl ?_)))
  refine .comment rfl (.comment rfl (.comment rfl (.line rfl rfl hstarted ?_)))
  exact .fixed rfl rfl rfl rfl (.fixed rfl rfl rfl rfl (.fixed rfl rfl rfl rfl
    (.fixed rfl rfl rfl rfl (.fixed rfl rfl rfl rfl (.nil _)))))

theorem declares_entryLines {p : Plan} (hnames : ∀ n ∈ p.order, IsFunctionName n.functionName) :
    Declares .outside (lineFed (Entry.entryLines p)) [Entry.functionName.toList] .outside := by
  obtain ⟨rest, hsteps, hrest⟩ := endsIn_entrySteps hnames
  unfold Entry.entryLines
  rw [hsteps]
  refine StepsDeclare.function ?_ hrest 0
  exact .fixed rfl rfl rfl rfl (.fixed rfl rfl rfl rfl (.comment rfl (.fixed rfl rfl rfl rfl
    (.fixed rfl rfl rfl rfl (.nil _)))))

/-- Filling slots with lines that leave the lexer as it was changes nothing for the lexer. -/
theorem ItemsRead.fillAny {s t : State} {items : List Item} {marks : List String}
    (h : ItemsRead s items marks t) {snippet : SlotKind → List String} (kinds : List SlotKind)
    (hsnippet : ∀ indent kind, .slot indent kind ∈ items → StepsNeutral (code (snippet kind))) :
    ItemsRead s (items.flatMap (·.fillAny snippet kinds)) marks t := by
  induction h with
  | nil => exact .nil
  | line hs hq hx hn _ ih =>
    exact .line hs hq hx hn (ih fun i k hmem => hsnippet i k (List.mem_cons_of_mem _ hmem))
  | mark hs hq hx hn _ ih =>
    exact .mark hs hq hx hn (ih fun i k hmem => hsnippet i k (List.mem_cons_of_mem _ hmem))
  | @slot closers indent kind rest marks v _ ih =>
    have hrest := ih fun i k hmem => hsnippet i k (List.mem_cons_of_mem _ hmem)
    rw [List.flatMap_cons, Item.fillAny]
    split
    · exact (itemsRead_of_code (hsnippet indent kind (by simp) closers) indent).append hrest
    · exact .slot hrest

theorem innerItems_eq (n : PlannedNode) (body : List Step) :
    ∃ indent, innerItems n body = .ofText 0 (declaration n) ::
      (((Sheet.empty 1).takeAll body).items ++ [.ofText indent "\x7d"]) := by
  have hopen : (Sheet.empty 0).takeAll (code [declaration n] ++ [.deeper]) =
      ⟨[.ofText 0 (declaration n)], 1⟩ := by
    rw [takeAll_append, takeAll_code]
    rfl
  have hbody := items_takeAll ⟨[.ofText 0 (declaration n)], 1⟩ body
  unfold innerItems
  rw [takeAll_append _ _ (code ["\x7d"]), takeAll_append _ _ [.back], takeAll_append _ _ body,
    hopen, takeAll_code]
  refine ⟨_, (congrArg (· ++ [_]) hbody).trans rfl⟩

/-- The function of a node declares its name. -/
theorem declares_build {n : PlannedNode} {c : Choices} {filled : Sheet}
    (hname : IsFunctionName n.functionName)
    (h : (NodeFunction.build n c).outcome = .ok filled) :
    Declares .outside (lineFed (filled.lines false)) [n.functionName.toList] .outside := by
  obtain ⟨draft, body, facts, hdraft, hbody, hfacts, rfl, hready, -⟩ := parts_of_build h
  obtain ⟨body', hbody', hitems⟩ := items_draft hdraft
  cases hbody.symm.trans hbody'
  obtain ⟨indent, hinner⟩ := innerItems_eq n body
  obtain ⟨items, hread, hinside⟩ := (neutral_body hbody []).takeAll (Sheet.empty 1)
  have hslot : ∀ indent kind, .slot indent kind ∈ items →
      StepsNeutral (code (Snippet.linesOr facts kind)) := by
    intro indent kind hmem
    have hinside : .slot indent kind ∈ innerItems n body := by
      rw [hinner, hread]
      exact List.mem_cons_of_mem _ (List.mem_append_left _ hmem)
    exact neutral_snippet (usual_of_facts hfacts) (ready_slot hready hitems hinside)
  have hlines := lines_fillAll hitems (Snippet.linesOr facts)
  rw [hinner, hread, Sheet.empty, List.nil_append, List.flatMap_cons, List.flatMap_append,
    List.flatMap_singleton] at hlines
  have hcomment : Declares .outside (lineFed ((NodeFunction.opening n).take 5)) [] .outside :=
    ⟨[], scans_opening n, rfl⟩
  have hopen : Declares .outside (lineFed (filledLines (Snippet.linesOr facts)
      (.ofText 0 (declaration n)))) [n.functionName.toList] (.within 0) :=
    ⟨_, (scans_declaration hname).print rfl rfl _, rfl⟩
  have hbetween := declares_within (hinside.fillAny SlotKind.all hslot).lines.read_eq
  rw [List.flatMap_assoc] at hbetween
  have hclose : Declares (.within 0) (lineFed (filledLines (Snippet.linesOr facts)
      (.ofText indent "\x7d"))) [] .outside :=
    ⟨[.sign '\x7d'], Scans.print rfl rfl rfl _, rfl⟩
  have hall := hcomment.append (hopen.append (hbetween.append hclose))
  rw [hlines]
  simp only [Text.lineFed_append]
  exact hall

theorem declares_functions {nodes : List PlannedNode} {c : Choices} {functions : List Sheet}
    (hnames : ∀ n ∈ nodes, IsFunctionName n.functionName)
    (h : List.Forall₂ (fun n sheet => (NodeFunction.build n c).outcome = .ok sheet) nodes
      functions) :
    Declares .outside (lineFed (functions.flatMap fun sheet => "" :: sheet.lines false))
      (nodes.map fun n => n.functionName.toList) .outside := by
  induction h with
  | nil => exact declares_nil _
  | @cons n sheet rest sheets hsheet _ ih =>
    have hblank : Declares .outside ['\n'] [] .outside := ⟨[], rfl, rfl⟩
    have hfirst := hblank.append (declares_build (hnames n (by simp)) hsheet)
    have hall := hfirst.append (ih fun m hm => hnames m (List.mem_cons_of_mem _ hm))
    rw [List.flatMap_cons, Text.lineFed_append, Text.lineFed_cons]
    exact hall

/-- The main file declares the entry function and the functions of the nodes. -/
theorem globals_main {g : Graph} {c : Choices} {p : Plan} {started : Moment} {main : String}
    (hplan : (Plan.build g c).outcome = .ok p) (h : (Entry.text p started).outcome = .ok main) :
    globals main = Entry.functionName :: p.nodes.map PlannedNode.functionName := by
  have hsound := Plan.sound_of_build hplan
  obtain ⟨functions, hbuilt, rfl⟩ := text_eq_ok h
  have hentry := declares_entryLines fun n hn => hsound.isFunctionName n (hsound.order_subset n hn)
  have hall := ((declares_header p started).append hentry).append
    (declares_functions hsound.isFunctionName hbuilt)
  rw [← Text.lineFed_append, ← Text.lineFed_append] at hall
  rw [hall.globals_eq]
  simp

/-! ## The file that installs triggers -/

open Installer

theorem stepsDeclare_header (p : Plan) :
    StepsDeclare .outside (Installer.header p) [] .outside :=
  .fixed rfl rfl rfl rfl (.fixed rfl rfl rfl rfl (.comment rfl (.fixed rfl rfl rfl rfl
    (.fixed rfl rfl rfl rfl (.nil _)))))

theorem stepsDeclare_installFunction {each : List (List Step)}
    (h : ∀ steps ∈ each, StepsNeutral steps) :
    StepsDeclare .outside (installFunction each) ["installTriggers".toList] .outside := by
  obtain ⟨rest, hsteps, hrest⟩ := endsIn_installFunction h
  rw [hsteps]
  refine .function ?_ hrest
  exact .fixed rfl rfl rfl rfl (.fixed rfl rfl rfl rfl (.fixed rfl rfl rfl rfl
    (.fixed rfl rfl rfl rfl (.nil _))))

theorem stepsDeclare_deleteOpening : StepsDeclare .outside (code [
    "/**",
    " * Remove every trigger that runs this workflow.",
    " */",
    "function deleteTriggers() \x7b"]) ["deleteTriggers".toList] (.within 0) :=
  .fixed rfl rfl rfl rfl (.fixed rfl rfl rfl rfl (.fixed rfl rfl rfl rfl
    (.fixed rfl rfl rfl rfl (.nil _))))

theorem stepsDeclare_deleteFunction :
    StepsDeclare .outside deleteFunction ["deleteTriggers".toList] .outside := by
  obtain ⟨rest, hsteps, hrest⟩ := endsIn_deleteFunction
  rw [hsteps]
  exact .function stepsDeclare_deleteOpening hrest

theorem stepsDeclare_webhookFunctions :
    StepsDeclare .outside webhookFunctions
      ["handleWebhookRequest".toList, "doPost".toList, "doGet".toList] .outside := by
  have hname : "const result = " ++ Entry.functionName ++ "(triggerData);" =
      "const result = executeWorkflow(triggerData);" := rfl
  have hinside (closers closers' : List Char) {steps : List Step}
      (h : StepsRead ⟨.code, closers⟩ steps [] ⟨.code, closers'⟩) :
      StepsDeclare (.within closers.length) steps [] (.within closers'.length) := h.declare
  unfold webhookFunctions
  simp only [List.append_assoc, hname]
  refine .cons (.fixed rfl rfl rfl rfl (.fixed rfl rfl rfl rfl (.fixed rfl rfl rfl rfl
    (.fixed rfl rfl rfl rfl (.nil _))))) ?_
  refine .before (.deeper _) (.before (hinside [] ['\x7d'] (by repeat' constructor)) ?_)
  refine .before (.deeper _) (.before (hinside ['\x7d'] ['\x7d'] (by repeat' constructor)) ?_)
  refine .before (.back _) (.before (hinside ['\x7d'] ['\x7d'] (by repeat' constructor)) ?_)
  refine .before (.deeper _) (.before (hinside ['\x7d'] ['\x7d'] (by repeat' constructor)) ?_)
  refine .before (.back _) (.before (hinside ['\x7d'] [] (by repeat' constructor)) ?_)
  refine .before (.back _) (.cons (.fixed rfl rfl rfl rfl (.fixed rfl rfl rfl rfl
    (.fixed rfl rfl rfl rfl (.nil _)))) ?_)
  refine .before (.deeper _) (.before (hinside [] [] (by repeat' constructor)) ?_)
  refine .before (.back _) (.cons (.fixed rfl rfl rfl rfl (.fixed rfl rfl rfl rfl
    (.fixed rfl rfl rfl rfl (.nil _)))) ?_)
  refine .before (.deeper _) (.before (hinside [] [] (by repeat' constructor)) ?_)
  exact .before (.back _) (.fixed rfl rfl rfl rfl (.nil _))

/-- The names that the file declares. -/
def installerNames (webhook : Bool) : List String :=
  ["installTriggers", "deleteTriggers"] ++
    if webhook then ["handleWebhookRequest", "doPost", "doGet"] else []

theorem globals_installer {p : Plan} {text : String}
    (h : (Installer.text? p).outcome = .ok (some text)) :
    globals text = installerNames (p.nodes.any fun n => n.kind? == some .webhookTrigger) := by
  rcases installer_eq_ok h with ⟨_, hnone⟩ | ⟨_, each, heach, hsome⟩
  · cases hnone
  have hblank : StepsDeclare .outside (code [""]) [] .outside := .fixed rfl rfl rfl rfl (.nil _)
  have hopen := (((stepsDeclare_header p).before (stepsDeclare_installFunction
    heach.neutral)).append hblank).append stepsDeclare_deleteFunction
  rw [Option.some.inj hsome]
  cases p.nodes.any fun n => n.kind? == some .webhookTrigger with
  | false =>
    have hnone : StepsDeclare .outside [] [] .outside := .nil _
    exact (hopen.append hnone 0).globals_eq
  | true =>
    have hall := hopen.append (hblank.before stepsDeclare_webhookFunctions)
    exact (hall 0).globals_eq

/-! ## The support files -/

/-- The lines are fixed texts, and these are their characters. -/
inductive Fixed : List String → List Char → Prop where
  | nil : Fixed [] []
  | line {cs ds : List Char} {rest : List String} (h : Fixed rest ds) :
      Fixed (String.ofList cs :: rest) (cs ++ '\n' :: ds)
  | joined {cs ds : List Char} {x : String} {rest : List String} (h : Fixed (x :: rest) ds) :
      Fixed ((String.ofList cs ++ x) :: rest) (cs ++ ds)

theorem Fixed.lineFed_eq {ls : List String} {cs : List Char} (h : Fixed ls cs) :
    lineFed ls = cs := by
  induction h with
  | nil => rfl
  | line _ ih => rw [Text.lineFed_cons, String.toList_ofList, ih]
  | joined _ ih => rw [Text.lineFed_cons, String.toList_append, String.toList_ofList,
      List.append_assoc, ← ih, Text.lineFed_cons]

/-- The lines stand outside all brackets and declare these names, and these are functions. -/
def Announces (ls names callable : List String) : Prop :=
  ∃ ts, Scans .start (lineFed ls) ts .start ∧
    gather ⟨0, false⟩ ts = (⟨0, false⟩, names.map String.toList) ∧
    ∀ name ∈ callable, name.toList ∈ gatherFunctions ⟨0, false⟩ ts

theorem Announces.declares {ls names callable : List String} (h : Announces ls names callable) :
    Declares .outside (lineFed ls) (names.map String.toList) .outside := by
  obtain ⟨ts, hscan, hnames, _⟩ := h
  exact ⟨ts, hscan, hnames⟩

theorem Announces.append {ls ms names more callable callable' : List String}
    (h : Announces ls names callable) (h' : Announces ms more callable') :
    Announces (ls ++ ms) (names ++ more) (callable ++ callable') := by
  obtain ⟨ts, hscan, hnames, hcallable⟩ := h
  obtain ⟨us, hscan', hmore, hcallable'⟩ := h'
  have hplace : (gather ⟨0, false⟩ ts).1 = ⟨0, false⟩ := congrArg Prod.fst hnames
  refine ⟨ts ++ us, ?_, ?_, List.forall_mem_append.mpr ⟨fun name hname => ?_, fun name hname => ?_⟩⟩
  · rw [Text.lineFed_append]
    exact hscan.append hscan'
  · rw [gather_append, hnames, hmore, List.map_append]
  · exact gatherFunctions_front _ _ _ (hcallable name hname)
  · refine gatherFunctions_behind _ _ _ ?_
    rw [hplace]
    exact hcallable' name hname

theorem Announces.globals_eq {ls names callable : List String} (h : Announces ls names callable) :
    globals (Text.joinLines ls ++ "\n") = names := by
  rw [h.declares.globals_eq, List.map_map]
  simp

theorem Announces.mem_functions {ls names callable : List String} (h : Announces ls names callable) :
    ∀ name ∈ callable, name ∈ functions (Text.joinLines ls ++ "\n") := by
  obtain ⟨ts, hscan, _, hcallable⟩ := h
  intro name hname
  unfold functions
  rw [hscan.tokens_eq]
  exact List.mem_map.mpr ⟨_, hcallable name hname, String.ofList_toList⟩

theorem Fixed.announces {ls : List String} {cs : List Char} (h : Fixed ls cs)
    {names callable : List String} (hcs : (scan .start cs).1 = .start ∧
      gather ⟨0, false⟩ (scan .start cs).2 = (⟨0, false⟩, names.map String.toList) ∧
      ∀ name ∈ callable, name.toList ∈ gatherFunctions ⟨0, false⟩ (scan .start cs).2) :
    Announces ls names callable := by
  refine ⟨(scan .start cs).2, ?_, hcs.2⟩
  rw [h.lineFed_eq]
  exact Prod.ext hcs.1 rfl

theorem announces_contextLines : Announces Support.contextLines
    ["getContextValue", "resolveTemplate", "resolveObject", "safeJsonParse", "formatDate",
      "generateCorrelationId", "retryWithBackoff"]
    ["getContextValue", "resolveTemplate", "resolveObject", "safeJsonParse"] := by
  apply Fixed.announces
  · simp only [Support.contextLines, String.append_assoc]
    repeat' first
      | with_reducible apply Fixed.joined
      | constructor
  · decide +kernel

theorem announces_rateLimitLines :
    Announces Support.rateLimitLines ["checkRateLimit"] ["checkRateLimit"] := by
  apply Fixed.announces
  · simp only [Support.rateLimitLines]
    repeat' first
      | with_reducible apply Fixed.joined
      | constructor
  · decide +kernel

theorem announces_requestLines : Announces Support.requestLines
    ["makeAuthenticatedRequest", "postJson", "getWithParams"] [] := by
  apply Fixed.announces
  · simp only [Support.requestLines]
    repeat' first
      | with_reducible apply Fixed.joined
      | constructor
  · decide +kernel

theorem announces_storageLines : Announces Support.storageLines
    ["SecureStorage", "markProcessed", "isAlreadyProcessed", "cleanupExpiredEntries"]
    ["markProcessed", "isAlreadyProcessed"] := by
  apply Fixed.announces
  · simp only [Support.storageLines]
    repeat' first
      | with_reducible apply Fixed.joined
      | constructor
  · decide +kernel

/-- The names that the support files declare. -/
def supportNames (limited : Bool) : List String :=
  ["getContextValue", "resolveTemplate", "resolveObject", "safeJsonParse", "formatDate",
    "generateCorrelationId", "retryWithBackoff"] ++
  (if limited then ["checkRateLimit"] else []) ++
  ["makeAuthenticatedRequest", "postJson", "getWithParams"] ++
  ["SecureStorage", "markProcessed", "isAlreadyProcessed", "cleanupExpiredEntries"]

theorem announces_generalLines (c : Choices) : Announces (Support.generalLines c)
    (["getContextValue", "resolveTemplate", "resolveObject", "safeJsonParse", "formatDate",
      "generateCorrelationId", "retryWithBackoff"] ++
      if c.includeRateLimiting then ["checkRateLimit"] else [])
    (["getContextValue", "resolveTemplate", "resolveObject", "safeJsonParse"] ++
      if c.includeRateLimiting then ["checkRateLimit"] else []) := by
  unfold Support.generalLines
  split
  · exact announces_contextLines.append announces_rateLimitLines
  · exact announces_contextLines

theorem globals_support (c : Choices) :
    (Support.files c).flatMap (fun f => globals f.content) =
      supportNames c.includeRateLimiting := by
  have hgeneral := (announces_generalLines c).globals_eq
  have hrequest := announces_requestLines.globals_eq
  have hstorage := announces_storageLines.globals_eq
  simp only [Support.files, Support.file, List.flatMap_cons, List.flatMap_nil, hgeneral, hrequest,
    hstorage, supportNames]
  simp

end Lexer

/-! ## Bundles -/

namespace Compiler

/-- The names that all scripts of a plan declare. -/
theorem globals_files {k : Compiler} {g : Graph} {c : Choices} {p : Plan} {files : List BundleFile}
    (hplan : (Plan.build g c).outcome = .ok p) (h : (k.files p).outcome = .ok files) :
    files.flatMap (fun f => Lexer.globals f.content) =
      (Entry.functionName :: p.nodes.map PlannedNode.functionName) ++
        Lexer.supportNames p.choices.includeRateLimiting ++
        if p.nodes.any fun n => Installer.isTriggerTag n.tag then
          Lexer.installerNames (p.nodes.any fun n => n.kind? == some .webhookTrigger)
        else [] := by
  obtain ⟨main, written, hmain, hwritten, rfl⟩ := files_eq_ok h
  rw [List.flatMap_append, List.flatMap_append, List.flatMap_singleton, Lexer.globals_support,
    Lexer.globals_main hplan hmain]
  congr 1
  rcases Lexer.installer_eq_ok hwritten with ⟨hnone, rfl⟩ | ⟨hsome, each, -, rfl⟩
  · rw [hnone]
    rfl
  · rw [hsome, if_pos rfl]
    exact (List.flatMap_singleton ..).trans (Lexer.globals_installer hwritten)

end Compiler

end Flowscript
