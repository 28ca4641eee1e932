-- Narration and the handling of failures. Neither of the two choices reaches
-- the functions of the nodes or the calls of the entry function. What logging
-- adds to the main file is a set of lines of its own, known by what they
-- start with: without them the text is the one that is written where logging
-- is off.
import Flowscript.Proofs.Calls
import Flowscript.Proofs.Results

namespace Flowscript

open Entry (callLine callSteps entryLines entrySteps failureSteps functionLines handlerSteps header
  mailSteps narration nodeSteps)
open Lexer (callLine_eq print_left)
open Recipe (code remark)

/-! ## Switching -/

/-- The choices with logging and the handling of failures switched on or off. -/
def Choices.switched (c : Choices) (logging handling : Bool) : Choices :=
  { c with includeLogging := logging, includeErrorHandling := handling }

/-- The plan with logging and the handling of failures switched on or off. -/
def Plan.switched (p : Plan) (logging handling : Bool) : Plan :=
  { p with choices := p.choices.switched logging handling }

section

variable (n : PlannedNode) (c : Choices) (logging handling : Bool)

theorem outline_switched :
    n.recipe.outline n (c.switched logging handling) = n.recipe.outline n c := by
  cases hk : n.kind? with
  | none => rw [PlannedNode.recipe_of_none hk]; rfl
  | some k =>
    rw [PlannedNode.recipe_of_kind hk]
    cases k <;> rfl

theorem facts_switched : n.recipe.facts n (c.switched logging handling) = n.recipe.facts n c := by
  cases hk : n.kind? with
  | none => rw [PlannedNode.recipe_of_none hk]; rfl
  | some k =>
    rw [PlannedNode.recipe_of_kind hk]
    cases k <;> rfl

/-- The function of a node looks at neither of the two choices. -/
theorem build_switched :
    NodeFunction.build n (c.switched logging handling) = NodeFunction.build n c := by
  unfold NodeFunction.build NodeFunction.draft Recipe.body
  rw [outline_switched, facts_switched]

end

/-! ## Narration -/

/-- Whether a line tells how the run goes on. -/
def isNarration (l : String) : Bool := Reserved.narrated.any fun r => startsWith r.start l

/-- The lines that do not tell how the run goes on. -/
def withoutNarration (ls : List String) : List String := ls.filter fun l => !isNarration l

@[simp]
theorem withoutNarration_append (ls ls' : List String) :
    withoutNarration (ls ++ ls') = withoutNarration ls ++ withoutNarration ls' :=
  List.filter_append ..

theorem isNarration_eq_false {l : String}
    (h : ∀ r ∈ Reserved.narrated, startsWith r.start l = false) : isNarration l = false :=
  List.any_eq_false.mpr fun r hr => by simp [h r hr]

theorem withoutNarration_eq_self {ls : List String}
    (h : ∀ r ∈ Reserved.narrated, ∀ l ∈ ls, startsWith r.start l = false) :
    withoutNarration ls = ls :=
  List.filter_eq_self.mpr fun l hl => by
    rw [isNarration_eq_false fun r hr => h r hr l hl]
    rfl

theorem withoutNarration_empty : withoutNarration [""] = [""] :=
  withoutNarration_eq_self fun r _ => List.forall_mem_singleton.mpr r.startsWith_empty

/-- Steps and the same steps without narration, written from the indent `i` on: both lead to the
indent `j`, and what is left of the lines of the first is the lines of the second. -/
structure Muted (i : Int) (steps steps' : List Step) (j : Int) : Prop where
  leads : Leads i steps j
  leads' : Leads i steps' j
  lines_eq : withoutNarration (linesAt i steps) = linesAt i steps'

theorem Muted.append {i j k : Int} {steps steps' more more' : List Step}
    (h : Muted i steps steps' j) (h' : Muted j more more' k) :
    Muted i (steps ++ more) (steps' ++ more') k where
  leads := h.leads.append h'.leads
  leads' := h.leads'.append h'.leads'
  lines_eq := by
    rw [linesAt_append h.leads, linesAt_append h.leads', withoutNarration_append, h.lines_eq,
      h'.lines_eq]

theorem linesAt_eq_filledAt (i : Int) (steps : List Step) :
    linesAt i steps = filledAt (fun _ => []) i steps := by
  refine List.flatMap_congr fun item _ => ?_
  cases item with
  | line indent x => exact (Lexer.filledLines_line ..).symm
  | slot indent kind => exact (Lexer.filledLines_slot (fun _ => []) indent kind).symm

/-- Steps without narration are left as they are. -/
theorem muted_of_heads {i j : Int} {heads : List (List Char)} {steps : List Step}
    (hleads : Leads i steps j) (h : StepHeads heads steps)
    (hheads : heads.all (Reserved.skipped Reserved.narrated) = true) : Muted i steps steps j := by
  refine ⟨hleads, hleads, withoutNarration_eq_self fun r hr l hl => ?_⟩
  rw [linesAt_eq_filledAt] at hl
  exact startsWith_filledAt _ (h.quiet hheads hr) (fun _ _ => List.forall_mem_nil _) i l hl

theorem isNarration_margin (i : Int) (l : String) : isNarration (margin i ++ l) = isNarration l := by
  unfold isNarration startsWith
  rw [unindent_margin]

/-- A line is narration where its fixed text goes beyond the start of narration. -/
theorem isNarration_of_head {c : Char} (hc : Text.isBlank c = false) {cs : List Char}
    (h : (Reserved.narrated.any fun r => r.letters.isPrefixOf (c :: cs)) = true) (x : String) :
    isNarration (String.ofList (c :: cs) ++ x) = true := by
  obtain ⟨r, hr, hhead⟩ := List.any_eq_true.mp h
  refine List.any_eq_true.mpr ⟨r, hr, ?_⟩
  rw [List.isPrefixOf_iff_prefix] at hhead
  rw [r.start_eq, startsWith, unindent_of_head hc, String.toList_append, String.toList_ofList,
    String.toList_ofList, List.isPrefixOf_iff_prefix]
  exact hhead.trans (List.prefix_append _ _)

theorem isNarration_of_fixed {c : Char} (hc : Text.isBlank c = false) {cs : List Char}
    (h : (Reserved.narrated.any fun r => r.letters.isPrefixOf (c :: cs)) = true) :
    isNarration (String.ofList (c :: cs)) = true := by
  have hline := isNarration_of_head hc h ""
  rwa [String.append_empty] at hline

/-- A line of narration stands there only where logging is on. -/
theorem muted_narration (i : Int) (c : Choices) (handling : Bool) {l : String}
    (h : isNarration l = true) :
    Muted i (narration (c.switched true handling) [l]) (narration (c.switched false handling) [l])
      i := by
  refine ⟨leads_code i [l], rfl, ?_⟩
  have hne : l ≠ "" := by
    rintro rfl
    cases h.symm.trans (isNarration_eq_false fun r _ => r.startsWith_empty)
  have hline : linesAt i (code [l]) = [margin i ++ l] := by
    simp [linesAt, takeAll_code, Sheet.writeAll, Sheet.add, Sheet.empty, Sheet.lines, Item.ofText,
      Item.print, hne]
  have hgone : withoutNarration [margin i ++ l] = [] := by
    rw [withoutNarration, List.filter_singleton, isNarration_margin, h]
    rfl
  exact (congrArg withoutNarration hline).trans hgone

/-! ## The entry function -/

theorem muted_callSteps (i : Int) (n : PlannedNode) (c : Choices) (handling : Bool) :
    Muted i (callSteps n (c.switched true handling)) (callSteps n (c.switched false handling)) i := by
  unfold callSteps
  rw [callLine_eq]
  simp only [String.append_assoc]
  refine .append (muted_of_heads (leads_code i _) (.joined .nil) rfl) (muted_narration i c handling ?_)
  exact isNarration_of_head rfl rfl _

theorem muted_failureSteps (i : Int) (n : PlannedNode) :
    Muted i (failureSteps n) (failureSteps n) i := by
  unfold failureSteps Entry.aftermathSteps
  simp only [String.append_assoc]
  refine .append (muted_of_heads (leads_code i _) (by repeat' constructor) rfl) ?_
  split
  · exact muted_of_heads rfl (by repeat' constructor) rfl
  · exact muted_of_heads rfl (by repeat' constructor) rfl

theorem muted_nodeSteps (n : PlannedNode) (c : Choices) (handling : Bool) :
    Muted 2 (nodeSteps n (c.switched true handling)) (nodeSteps n (c.switched false handling)) 2 := by
  unfold nodeSteps
  simp only [String.append_assoc]
  refine .append (.append (muted_of_heads rfl (by repeat' constructor) rfl)
    (muted_narration 2 c handling (isNarration_of_head rfl rfl _))) ?_
  cases handling with
  | false => exact muted_callSteps 2 n c false
  | true =>
    have hopen : Muted 2 (code ["try \x7b"] ++ [.deeper]) (code ["try \x7b"] ++ [.deeper]) 3 :=
      muted_of_heads rfl (by repeat' constructor) rfl
    have hcatch : Muted 3 ([.back] ++ code ["\x7d catch (nodeError) \x7b"] ++ [.deeper])
        ([.back] ++ code ["\x7d catch (nodeError) \x7b"] ++ [.deeper]) 3 :=
      muted_of_heads rfl (by repeat' constructor) rfl
    have hclose : Muted 3 ([.back] ++ code ["\x7d"]) ([.back] ++ code ["\x7d"]) 2 :=
      muted_of_heads rfl (by repeat' constructor) rfl
    have hall := (hopen.append (muted_callSteps 3 n c true)).append
      (hcatch.append ((muted_failureSteps 3 n).append hclose))
    simpa only [Choices.switched, if_true, List.append_assoc] using hall

theorem muted_calls (order : List PlannedNode) (c : Choices) (handling : Bool) :
    Muted 2 (order.flatMap fun n => code [""] ++ nodeSteps n (c.switched true handling))
      (order.flatMap fun n => code [""] ++ nodeSteps n (c.switched false handling)) 2 := by
  induction order with
  | nil => exact muted_of_heads rfl .nil rfl
  | cons n rest ih =>
    refine .append (.append ?_ (muted_nodeSteps n c handling)) ih
    exact muted_of_heads rfl (.blank .nil) rfl

theorem muted_handlerSteps (p : Plan) : Muted 2 (handlerSteps p) (handlerSteps p) 2 := by
  unfold handlerSteps mailSteps
  simp only [String.append_assoc]
  split
  · exact muted_of_heads rfl (by repeat' constructor) rfl
  · exact muted_of_heads rfl (by repeat' constructor) rfl

/-- With logging on the entry function has the lines of narration, and all others are those that it
has without. -/
theorem muted_entrySteps (p : Plan) (handling : Bool) :
    Muted 0 (entrySteps (p.switched true handling)) (entrySteps (p.switched false handling)) 0 := by
  have hhandler : handlerSteps (p.switched true handling) = handlerSteps (p.switched false handling) :=
    rfl
  have hempty : Muted 2 (if p.order.isEmpty then [remark "No nodes to execute"] else [])
      (if p.order.isEmpty then [remark "No nodes to execute"] else []) 2 := by
    split
    · exact muted_of_heads rfl (by repeat' constructor) rfl
    · exact muted_of_heads rfl .nil rfl
  unfold entrySteps
  simp only [String.append_assoc, List.append_assoc, hhandler]
  refine .append (muted_of_heads (leads_code 0 _) (by repeat' constructor) rfl) ?_
  refine .append (j := 1) (muted_of_heads rfl (.deeper .nil) rfl) ?_
  refine .append (muted_of_heads (leads_code 1 _) (by repeat' constructor) rfl) ?_
  refine .append (muted_narration 1 p.choices handling (isNarration_of_fixed rfl rfl)) ?_
  refine .append (muted_of_heads (leads_code 1 _) (by repeat' constructor) rfl) ?_
  refine .append (j := 2) (muted_of_heads rfl (.deeper .nil) rfl) ?_
  refine .append (muted_narration 2 p.choices handling (isNarration_of_fixed rfl rfl)) ?_
  refine .append hempty ?_
  refine .append (muted_calls p.order p.choices handling) ?_
  refine .append (muted_of_heads (leads_code 2 _) (.blank .nil) rfl) ?_
  refine .append (muted_narration 2 p.choices handling (isNarration_of_fixed rfl rfl)) ?_
  refine .append (muted_of_heads (leads_code 2 _) (by repeat' constructor) rfl) ?_
  refine .append (j := 1) (muted_of_heads rfl (.back .nil) rfl) ?_
  refine .append (muted_of_heads (leads_code 1 _) (by repeat' constructor) rfl) ?_
  refine .append (j := 2) (muted_of_heads rfl (.deeper .nil) rfl) ?_
  refine .append (muted_handlerSteps _) ?_
  exact muted_of_heads rfl (by repeat' constructor) rfl

/-! ## The main file -/

theorem linesAt_left (ls : List String) : linesAt 0 (code ls) = ls := by
  unfold linesAt Sheet.lines
  rw [takeAll_code]
  simp only [Sheet.writeAll, Sheet.add, Sheet.empty, List.nil_append, List.flatMap_map, print_left,
    List.flatMap_singleton']

theorem withoutNarration_header (p : Plan) (started : Moment) :
    withoutNarration (header p started) = header p started := by
  have hmuted : Muted 0 (code (header p started)) (code (header p started)) 0 := by
    unfold header
    dsimp only
    exact muted_of_heads (leads_code 0 _) (by repeat' constructor) rfl
  rw [← linesAt_left (header p started)]
  exact hmuted.lines_eq

/-- No function of a node narrates. -/
theorem withoutNarration_build {n : PlannedNode} {c : Choices} {sheet : Sheet}
    (h : (NodeFunction.build n c).outcome = .ok sheet) :
    withoutNarration (sheet.lines false) = sheet.lines false := by
  obtain ⟨body, facts, hcomposed⟩ := composed_of_build h
  refine withoutNarration_eq_self fun r hr => startsWith_of_statements ?_
  have hstatements := hcomposed.statements_eq _ r.opensCode_letters
  rw [← r.start_eq] at hstatements
  rw [hstatements, (Reserved.quiet_body hcomposed.ofRecipe hr).statements,
    slots_body hcomposed.ofRecipe]
  exact List.flatMap_eq_nil_iff.mpr fun kind hkind => statements_eq_nil
    (Reserved.startsWith_snippet (Lexer.usual_of_facts hcomposed.factsOf) (hcomposed.ready kind hkind)
      r)

theorem withoutNarration_functions {nodes : List PlannedNode} {c : Choices} {functions : List Sheet}
    (h : List.Forall₂ (fun n sheet => (NodeFunction.build n c).outcome = .ok sheet) nodes
      functions) :
    withoutNarration (functions.flatMap fun sheet => "" :: sheet.lines false) =
      functions.flatMap fun sheet => "" :: sheet.lines false := by
  induction h with
  | nil => rfl
  | cons hsheet _ ih =>
    rw [List.flatMap_cons, withoutNarration_append, ih, ← List.singleton_append,
      withoutNarration_append, withoutNarration_empty, withoutNarration_build hsheet]

/-- The text without the lines that narrate. -/
def mute (text : String) : String :=
  Text.joinLines (withoutNarration (Text.splitAt '\n' text))

theorem mute_joinLines_feed {ls ls' : List String} (hne : ls' ≠ [])
    (hmuted : withoutNarration ls = ls') (h : ∀ l ∈ ls, Text.OneLine l) :
    mute (Text.joinLines ls ++ "\n") = Text.joinLines ls' ++ "\n" := by
  have hls : ls ≠ [] := by
    rintro rfl
    exact hne hmuted.symm
  have hone : ∀ l ∈ ls', Text.OneLine l := by
    intro l hl
    rw [← hmuted] at hl
    exact h l (List.mem_of_mem_filter hl)
  rw [mute, Text.splitAt_joinLines_feed hls h, withoutNarration_append, hmuted,
    withoutNarration_empty, ← Text.splitAt_joinLines_feed hne hone, Text.joinLines_splitAt]

/-- Every function of the plan has the name of one. -/
def Plan.WellNamed (p : Plan) : Prop :=
  (∀ n ∈ p.nodes, IsFunctionName n.functionName) ∧ ∀ n ∈ p.order, IsFunctionName n.functionName

theorem Plan.wellNamed_of_build {g : Graph} {c : Choices} {p : Plan}
    (h : (Plan.build g c).outcome = .ok p) : p.WellNamed := by
  have hsound := Plan.sound_of_build h
  exact ⟨hsound.isFunctionName, fun n hn => hsound.isFunctionName n (hsound.order_subset n hn)⟩

theorem functionLines_switched (p : Plan) (logging handling : Bool) :
    functionLines (p.switched logging handling) = functionLines p := by
  have hbuild : (fun n => NodeFunction.build n (p.switched logging handling).choices) =
      fun n => NodeFunction.build n p.choices :=
    funext fun n => build_switched n p.choices logging handling
  unfold functionLines
  rw [hbuild]
  rfl

/-- Without logging the main file is the one with logging, where the lines that narrate are left
out. -/
theorem outcome_text_muted {p : Plan} (hp : p.WellNamed) (handling : Bool) (started : Moment) :
    (Entry.text (p.switched false handling) started).outcome =
      (Entry.text (p.switched true handling) started).outcome.map mute := by
  unfold Entry.text
  rw [functionLines_switched, functionLines_switched, Traced.outcome_bind, Traced.outcome_bind]
  cases hlines : (functionLines p).outcome with
  | error f => rfl
  | ok ls =>
    obtain ⟨functions, hfunctions, hls⟩ := Traced.bind_eq_ok.mp hlines
    cases hls
    have hbuilt := Traced.forEach_eq_ok hfunctions
    have hswitched := hbuilt.imp fun n sheet hsheet =>
      (congrArg Traced.outcome (build_switched n p.choices true handling)).trans hsheet
    have hread := @Lexer.linesRead_main (p.switched true handling) functions hp.2 hp.1 hswitched
      started
    have hheader : header (p.switched true handling) started =
        header (p.switched false handling) started := rfl
    have hentry : withoutNarration (entryLines (p.switched true handling)) =
        entryLines (p.switched false handling) := (muted_entrySteps p handling).lines_eq
    refine congrArg Except.ok (Eq.symm (mute_joinLines_feed (by simp [header]) ?_ fun l hl => ?_))
    · rw [withoutNarration_append, withoutNarration_append, withoutNarration_header, hheader, hentry,
        withoutNarration_functions hbuilt]
    · exact (hread.unbroken l hl).oneLine

/-! ## The law -/

/-- Logging and the handling of failures are switched without a change in the functions of the nodes,
and the entry function calls the same nodes in the same order. Where logging is off, the main file is
the one that is written where it is on, without the lines that narrate; where the one fails the other
does, for the same reason. All plans that are made of graphs have the names that this asks for. -/
theorem logging_only_adds_the_lines_that_narrate :
    (∀ (g : Graph) (c : Choices) (p : Plan), (Plan.build g c).outcome = .ok p → p.WellNamed) ∧
    ∀ p : Plan, p.WellNamed → ∀ logging handling : Bool,
      (∀ n, NodeFunction.text n (p.switched logging handling).choices =
        NodeFunction.text n p.choices) ∧
      ((entryLines (p.switched logging handling)).filter isCall).map unindent =
        ((entryLines p).filter isCall).map unindent ∧
      ∀ started : Moment, (Entry.text (p.switched false handling) started).outcome =
        (Entry.text (p.switched true handling) started).outcome.map mute := by
  refine ⟨fun g c p hplan => Plan.wellNamed_of_build hplan, fun p hp logging handling => ?_⟩
  have hcalls (p' : Plan) (horder : p'.order = p.order) :
      ((entryLines p').filter isCall).map unindent = p.order.map callLine := by
    have hnames : ∀ n ∈ p'.order, IsFunctionName n.functionName := horder ▸ hp.2
    rw [← filter_isCall_landmarks, (Lexer.linesRead_entryLines hnames).landmarks_eq,
      filter_isCall_calls, horder]
  refine ⟨fun n => ?_, ?_, fun started => outcome_text_muted hp handling started⟩
  · have hbuild := build_switched n p.choices logging handling
    exact congrArg (fun x => x >>= fun sheet => pure (sheet.render false)) hbuild
  · rw [hcalls (p.switched logging handling) rfl, hcalls p rfl]

/-- A node that has the words of narration in its id and in what it logs. -/
def talkative : Graph := ⟨"w", "W", some "Logger.log('Executing node: '",
  [⟨"\nLogger.log('Node completed: '", "utility.logger",
    [("message", .text "\nLogger.log('Executing node: ' + ")]⟩], []⟩

/-- Its plan, where nothing is left to resolve in its settings. -/
def talkativePlan : Plan :=
  let nodes := [⟨"\nLogger.log('Node completed: '", "utility.logger",
    "execute__Logger_log__Node_completed___",
    [("message", .text "\nLogger.log('Executing node: ' + ")]⟩]
  ⟨talkative, ⟨none, true, true, true, "UTC", "1"⟩, nodes, nodes⟩

theorem a_talkative_graph_is_muted :
    ∃ p main, (Plan.build talkative ⟨none, true, true, true, "UTC", "1"⟩).outcome = .ok p ∧
      (entryLines (p.switched true true)).length = (entryLines (p.switched false true)).length + 5 ∧
      (Entry.text (p.switched true true) ⟨2026, 1, 1, 0, 0, 0, 0, none⟩).outcome = .ok main ∧
      (Entry.text (p.switched false true) ⟨2026, 1, 1, 0, 0, 0, 0, none⟩).outcome =
        .ok (mute main) := by
  have hplan : (Plan.build talkative ⟨none, true, true, true, "UTC", "1"⟩).outcome =
      .ok talkativePlan := rfl
  have hlength : (entryLines (talkativePlan.switched true true)).length =
      (entryLines (talkativePlan.switched false true)).length + 5 := by decide +kernel
  have hrun : ∃ main, (Entry.text (talkativePlan.switched true true)
      ⟨2026, 1, 1, 0, 0, 0, 0, none⟩).outcome = .ok main := ⟨_, rfl⟩
  obtain ⟨main, hmain⟩ := hrun
  have hlaw := logging_only_adds_the_lines_that_narrate
  have hmuted := (hlaw.2 _ (hlaw.1 _ _ _ hplan) true true).2.2 ⟨2026, 1, 1, 0, 0, 0, 0, none⟩
  refine ⟨talkativePlan, main, hplan, hlength, hmain, ?_⟩
  rw [hmuted, hmain]
  rfl

end Flowscript
