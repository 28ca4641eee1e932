-- The result that a node hands back. The function of a node ends in one
-- object, which is told from all that stands before it by its first line: the
-- type comes first, the fields of the outline follow, and the status comes
-- last. Type and status are those of a closed table, and a tag that is not in
-- the table is its own type and is skipped.
import Flowscript.Proofs.ClockReports
import Flowscript.Proofs.Closure
import Flowscript.Proofs.Reserved

namespace Flowscript

open Lexer (declaration filledLines innerItems)
open Recipe (code)

/-! ## The table -/

/-- The type and the status of the result, for each tag that is known. -/
def resultTable : List (String × String × String) := [
  ("trigger.time.cron", "time_trigger", "triggered"),
  ("trigger.webhook", "webhook_trigger", "triggered"),
  ("trigger.gmail.new_email", "gmail_trigger", "triggered"),
  ("trigger.sheets.row_added", "sheets_trigger", "triggered"),
  ("action.gmail.send", "gmail_send", "sent"),
  ("action.gmail.read", "gmail_read", "completed"),
  ("action.sheets.append", "sheets_append", "completed"),
  ("action.sheets.read", "sheets_read", "completed"),
  ("action.drive.create_file", "drive_create", "created"),
  ("action.http.request", "http_request", "completed"),
  ("action.slack.post_message", "slack_post_message", "sent"),
  ("condition.if", "condition", "evaluated"),
  ("transform.data_mapper", "data_mapper", "transformed"),
  ("utility.delay", "delay", "completed"),
  ("utility.logger", "logger", "completed")]

/-- The type and the status of the result of a node with the tag. -/
def resultOfTag (tag : String) : String × String := (resultTable.lookup tag).getD (tag, "skipped")

/-- The end of a function: a result with its type, its fields and its status, and the last bracket. -/
def endLines (type status : String) (fields : List (String × String)) : List String :=
  ["  return \x7b", "    type: " ++ Json.literal (.text type) ++ ","] ++
  fields.map (fun f => "    " ++ f.1 ++ ": " ++ f.2 ++ ",") ++
  ["    status: " ++ Json.literal (.text status), "  \x7d;", "\x7d"]

/-- Recipes keep to the table. -/
theorem resultOfTag_eq (n : PlannedNode) :
    resultOfTag n.tag = (n.recipe.resultOf n, n.recipe.status) := by
  cases hk : n.kind? with
  | some k =>
    rw [PlannedNode.recipe_of_kind hk, Lexer.tag_of_ofTag? hk]
    cases k <;> rfl
  | none =>
    rw [PlannedNode.recipe_of_none hk]
    have htags : resultTable.map Prod.fst = Kind.all.map Kind.tag := rfl
    have hnone : resultTable.lookup n.tag = none := by
      refine List.lookup_eq_none_iff.mpr fun e he => ?_
      have htag : e.1 ∈ resultTable.map Prod.fst := List.mem_map_of_mem he
      rw [htags] at htag
      obtain ⟨k, hmem, hk'⟩ := List.mem_map.mp htag
      have hne : ¬ (k.tag == n.tag) = true := List.find?_eq_none.mp hk k hmem
      rw [hk'] at hne
      exact bne_iff_ne.mpr fun heq => hne (beq_iff_eq.mpr heq.symm)
    rw [resultOfTag, hnone]
    rfl

/-! ## Outlines -/

/-- Steps of an outline: they come back to their indent, and none of them begins a result. -/
structure Outlined (steps : List Step) : Prop where
  leads : Leads 1 steps 1
  quiet : Quiet Reserved.result.start steps

theorem outlined {heads : List (List Char)} {steps : List Step} (hleads : Leads 1 steps 1)
    (h : StepHeads heads steps) (hheads : heads.all (Reserved.skipped [.result]) = true) :
    Outlined steps := ⟨hleads, h.quiet hheads (List.mem_singleton_self _)⟩

theorem Outlined.append {steps steps' : List Step} (h : Outlined steps) (h' : Outlined steps') :
    Outlined (steps ++ steps') := by
  refine ⟨h.leads.append h'.leads, fun parts hparts => ?_⟩
  rcases List.mem_append.mp hparts with hparts | hparts
  · exact h.quiet parts hparts
  · exact h'.quiet parts hparts

theorem outlined_nil : Outlined [] := ⟨rfl, fun _ hparts => absurd hparts List.not_mem_nil⟩

/-- Lines of one start, however many there are. -/
theorem outlined_of_lines {cs : List Char} {steps : List Step}
    (h : ∀ st ∈ steps, ∃ parts, st = .line (.text (String.ofList cs) :: parts))
    (hcs : Reserved.skipped [.result] cs = true) : Outlined steps := by
  induction steps with
  | nil => exact outlined_nil
  | cons st rest ih =>
    obtain ⟨⟨parts, rfl⟩, hrest⟩ := List.forall_mem_cons.mp h
    have hline : Outlined [.line (.text (String.ofList cs) :: parts)] :=
      outlined rfl (.line .nil) (by simp [hcs])
    exact hline.append (ih hrest)

theorem outlined_optionalFields {cs : List Char} (hcs : Reserved.skipped [.result] cs = true)
    (config : Fields) (keys : List (String × String)) :
    Outlined (Recipe.optionalFields config (String.ofList cs) keys) := by
  refine outlined_of_lines (fun st hst => ?_) hcs
  obtain ⟨key, _, hst⟩ := List.mem_filterMap.mp hst
  obtain ⟨v, _, rfl⟩ := Option.map_eq_some_iff.mp hst
  exact ⟨_, rfl⟩

theorem outlined_outline {n : PlannedNode} {c : Choices} {o : Outline}
    (h : (n.recipe.outline n c).outcome = .ok o) : Outlined o.steps := by
  cases hk : n.kind? with
  | none =>
    rw [PlannedNode.recipe_of_none hk] at h
    cases h
    exact outlined rfl (by repeat' constructor) rfl
  | some k =>
    rw [PlannedNode.recipe_of_kind hk] at h
    cases k with
    | gmailTrigger | gmailRead | condition =>
      obtain ⟨_, _, h⟩ := Traced.bind_eq_ok.mp h
      obtain ⟨k, _, h⟩ := Traced.bind_eq_ok.mp h
      cases h
      exact outlined rfl (by repeat' constructor) rfl
    | delay =>
      obtain ⟨milliseconds, _, h⟩ := Traced.bind_eq_ok.mp h
      obtain ⟨seconds, _, h⟩ := Traced.bind_eq_ok.mp h
      obtain ⟨total, _, h⟩ := Traced.bind_eq_ok.mp h
      cases h
      exact outlined rfl (by repeat' constructor) rfl
    | gmailSend =>
      cases h
      refine .append (.append (.append ?_ (outlined_optionalFields rfl _ _)) ?_) ?_
      · cases Config.flag n.config "htmlBody" <;>
          exact outlined rfl (by repeat' constructor) rfl
      · split
        · exact outlined rfl (by repeat' constructor) rfl
        · exact outlined_nil
      · exact outlined rfl (by repeat' constructor) rfl
    | sheetsAppend =>
      simp only [Kind.recipe, Recipe.sheetsAppend] at h
      split at h
      · cases h
        cases Config.flag n.config "includeTimestamp" <;>
          exact outlined rfl (by repeat' constructor) rfl
      · cases h
    | sheetsRead =>
      cases h
      cases Config.flag n.config "hasHeaders" <;>
        exact outlined rfl (by repeat' constructor) rfl
    | httpRequest =>
      obtain ⟨_, _, h⟩ := Traced.bind_eq_ok.mp h
      cases h
      dsimp only
      split <;> exact outlined rfl (by repeat' constructor) rfl
    | slackPost =>
      cases h
      simp only [List.append_assoc]
      refine .append ?_ (.append ?_ (.append (outlined_optionalFields rfl _ _) ?_))
      all_goals exact outlined rfl (by repeat' constructor) rfl
    | dataMapper =>
      simp only [Kind.recipe, Recipe.dataMapper] at h
      split at h
      · cases h
        refine .append (outlined rfl (by repeat' constructor) rfl) ?_
        apply outlined_of_lines
        · intro st hst
          obtain ⟨e, _, rfl⟩ := List.mem_map.mp hst
          exact ⟨_, rfl⟩
        · rfl
      · cases h
    | logger =>
      obtain ⟨_, _, h⟩ := Traced.bind_eq_ok.mp h
      cases h
      cases Config.flag n.config "saveToSheet" <;>
        exact outlined rfl (by repeat' constructor) rfl
    | _ =>
      cases h
      exact outlined rfl (by repeat' constructor) rfl

/-! ## Filled lines -/

/-- The lines of steps that are written at an indent, where slots are filled with snippets. -/
def filledAt (snippet : SlotKind → List String) (i : Int) (steps : List Step) : List String :=
  ((Sheet.empty i).takeAll steps).items.flatMap (filledLines snippet)

section

variable (snippet : SlotKind → List String)

theorem filledAt_append {i j : Int} {steps : List Step} (h : Leads i steps j)
    (steps' : List Step) :
    filledAt snippet i (steps ++ steps') = filledAt snippet i steps ++ filledAt snippet j steps' := by
  unfold Leads at h
  unfold filledAt
  rw [takeAll_append, items_takeAll, h, List.flatMap_append]

theorem filledAt_lines (i : Int) {lines : List (List Part)}
    (h : ∀ parts ∈ lines, lineCode parts ≠ "") :
    filledAt snippet i (lines.map Step.line) = lines.map fun parts => margin i ++ lineCode parts := by
  induction lines with
  | nil => rfl
  | cons parts rest ih =>
    obtain ⟨hne, hrest⟩ := List.forall_mem_cons.mp h
    have hline : Leads i [.line parts] i := rfl
    have hprint : filledAt snippet i [.line parts] = [margin i ++ lineCode parts] := by
      simp [filledAt, filledLines, Item.fillAny, Sheet.takeAll, Sheet.take, Sheet.write, Sheet.add,
        Sheet.empty, Item.ofText, Item.print, hne]
    rw [List.map_cons, List.map_cons, ← List.singleton_append, filledAt_append _ hline, hprint,
      ih hrest]
    rfl

/-- Where neither the lines of the steps nor the snippets in their slots start with a text, no line of
them does. -/
theorem startsWith_filledAt {start : String} {steps : List Step} (h : Quiet start steps)
    (hsnippet : ∀ kind, .slot kind ∈ steps → ∀ l ∈ snippet kind, startsWith start l = false)
    (i : Int) : ∀ l ∈ filledAt snippet i steps, startsWith start l = false := by
  have hnone : statements start (filledAt snippet i steps) = [] := by
    refine (Lexer.flatMap_takeAll (statement_print start) steps snippet).trans ?_
    refine (h.statements snippet).trans ?_
    exact List.flatMap_eq_nil_iff.mpr fun kind hkind =>
      statements_eq_nil (hsnippet kind (slot_mem hkind))
  exact startsWith_of_statements hnone

end

/-! ## The lines of a result -/

/-- The lines inside the object of a result. -/
def resultParts (result status : String) (fields : List (String × Part)) : List (List Part) :=
  [.text "type: ", .expr (.literal (.text result)), .text ","] ::
    (fields.map fun f => [.text f.1, .text ": ", f.2, .text ","]) ++
    [[.text "status: ", .expr (.literal (.text status))]]

theorem resultSteps_eq (result status : String) (fields : List (String × Part)) :
    Recipe.resultSteps result status fields =
      code ["return \x7b"] ++ ([.deeper] ++ ((resultParts result status fields).map Step.line ++
        ([.back] ++ code ["\x7d;"]))) := by
  simp [Recipe.resultSteps, resultParts, code]

theorem lineCode_resultParts_ne {result status : String} {fields : List (String × Part)}
    {parts : List Part} (h : parts ∈ resultParts result status fields) : lineCode parts ≠ "" := by
  have hcolon : ':' ∈ (lineCode parts).toList := by
    rcases List.mem_append.mp h with h | h
    · rcases List.mem_cons.mp h with rfl | h
      · simp [lineCode_cons, Part.code]
      · obtain ⟨f, _, rfl⟩ := List.mem_map.mp h
        simp [lineCode_cons, Part.code]
    · rw [List.mem_singleton.mp h]
      simp [lineCode_cons, Part.code]
  intro hempty
  rw [hempty] at hcolon
  cases hcolon

theorem filledAt_resultParts (snippet : SlotKind → List String) (result status : String)
    (fields : List (String × Part)) :
    filledAt snippet 2 ((resultParts result status fields).map Step.line) =
      ("    type: " ++ Json.literal (.text result) ++ ",") ::
        (fields.map fun f => "    " ++ f.1 ++ ": " ++ f.2.code ++ ",") ++
        ["    status: " ++ Json.literal (.text status)] := by
  have htype : margin 2 ++ lineCode [.text "type: ", .expr (.literal (.text result)), .text ","] =
      "    type: " ++ Json.literal (.text result) ++ "," := by
    rw [lineCode_cons, lineCode_cons, lineCode_text, ← String.append_assoc, ← String.append_assoc]
    rfl
  have hfield (f : String × Part) : margin 2 ++ lineCode [.text f.1, .text ": ", f.2, .text ","] =
      "    " ++ f.1 ++ ": " ++ f.2.code ++ "," := by
    rw [lineCode_cons, lineCode_cons, lineCode_cons, lineCode_text, ← String.append_assoc,
      ← String.append_assoc, ← String.append_assoc]
    rfl
  have hstatus : margin 2 ++ lineCode [.text "status: ", .expr (.literal (.text status))] =
      "    status: " ++ Json.literal (.text status) := by
    rw [lineCode_cons, ← String.append_assoc]
    rfl
  rw [filledAt_lines snippet 2 fun _ => lineCode_resultParts_ne, resultParts, List.map_append,
    List.map_cons, List.map_map, List.map_singleton, htype, hstatus]
  exact congrArg (_ :: · ++ _) (List.map_congr_left fun f _ => hfield f)

/-- The result opens one level deep, and what it tells stands a level deeper. -/
theorem filledAt_resultSteps (snippet : SlotKind → List String) (result status : String)
    (fields : List (String × Part)) :
    filledAt snippet 1 (Recipe.resultSteps result status fields ++ ([.back] ++ code ["\x7d"])) =
      endLines result status (fields.map fun f => (f.1, f.2.code)) := by
  have hdeeper : Leads 1 [.deeper] 2 := rfl
  have hopen : filledAt snippet 1 (code ["return \x7b"] ++ [.deeper]) = ["  return \x7b"] := rfl
  have hclose : filledAt snippet 2 ([.back] ++ code ["\x7d;"] ++ ([.back] ++ code ["\x7d"])) =
      ["  \x7d;", "\x7d"] := rfl
  have hsplit : Recipe.resultSteps result status fields ++ ([.back] ++ code ["\x7d"]) =
      code ["return \x7b"] ++ [.deeper] ++ ((resultParts result status fields).map Step.line ++
        ([.back] ++ code ["\x7d;"] ++ ([.back] ++ code ["\x7d"]))) := by
    simp [resultSteps_eq]
  rw [hsplit, filledAt_append snippet ((leads_code 1 _).append hdeeper),
    filledAt_append snippet (leads_lines 2 _), hopen, hclose, filledAt_resultParts, endLines]
  simp

/-! ## The lines of a function -/

/-- A function ends in the result of its node, and no line before it begins a result. -/
theorem lines_of_build {n : PlannedNode} {c : Choices} {sheet : Sheet}
    (h : (NodeFunction.build n c).outcome = .ok sheet) :
    ∃ front fields,
      sheet.lines false = front ++ endLines (n.recipe.resultOf n) n.recipe.status fields ∧
      ∀ l ∈ front, startsWith Reserved.result.start l = false := by
  obtain ⟨draft, body, facts, hdraft, hbody, hfacts, rfl, hready, hslots⟩ := Lexer.parts_of_build h
  obtain ⟨body', hbody', hitems⟩ := Lexer.items_draft hdraft
  cases hbody.symm.trans hbody'
  obtain ⟨o, ho, rfl, _⟩ := Recipe.body_eq_ok.mp hbody
  have houtline := outlined_outline ho
  have hframe := startsWith_frame Reserved.result.opensCode_letters n
  rw [← Reserved.start_eq] at hframe
  refine ⟨NodeFunction.opening n ++ filledAt (Snippet.linesOr facts) 1 o.steps,
    o.fields.map fun f => (f.1, f.2.code), ?_, fun l hl => ?_⟩
  · have hdeeper : Leads 0 [.deeper] 1 := rfl
    have hopening : (NodeFunction.opening n).take 5 ++ [declaration n] = NodeFunction.opening n := rfl
    have hopen : filledAt (Snippet.linesOr facts) 0 (code [declaration n] ++ [.deeper]) =
        [declaration n] := rfl
    have hinner : (innerItems n (o.steps ++ Recipe.resultSteps (n.recipe.resultOf n)
        n.recipe.status o.fields)).flatMap (filledLines (Snippet.linesOr facts)) =
        filledAt (Snippet.linesOr facts) 0 (code [declaration n] ++ [.deeper] ++ (o.steps ++
          (Recipe.resultSteps (n.recipe.resultOf n) n.recipe.status o.fields ++
            ([.back] ++ code ["\x7d"])))) := by
      simp [innerItems, filledAt]
    rw [Lexer.lines_fillAll hitems, hinner,
      filledAt_append _ ((leads_code 0 _).append hdeeper), filledAt_append _ houtline.leads,
      filledAt_resultSteps, hopen, ← List.append_assoc, ← List.append_assoc, hopening]
  · rcases List.mem_append.mp hl with hl | hl
    · exact hframe l (List.mem_append_left _ hl)
    · refine startsWith_filledAt _ houtline.quiet (fun kind hkind => ?_) 1 l hl
      exact Reserved.startsWith_snippet (Lexer.usual_of_facts hfacts)
        (hready kind (hslots kind (List.mem_append_left _ hkind))) .result

theorem splitAt_text {n : PlannedNode} {c : Choices} {text : String}
    (hname : IsFunctionName n.functionName) (h : (NodeFunction.text n c).outcome = .ok text) :
    ∃ sheet, (NodeFunction.build n c).outcome = .ok sheet ∧
      Text.splitAt '\n' text = sheet.lines false := by
  obtain ⟨sheet, hsheet, h⟩ := Traced.bind_eq_ok.mp h
  cases h
  refine ⟨sheet, hsheet, ?_⟩
  have hread := Lexer.linesRead_build hname hsheet
  have hne : sheet.lines false ≠ [] := by
    obtain ⟨front, fields, hlines, _⟩ := lines_of_build hsheet
    simp [hlines, endLines]
  unfold Text.splitAt Sheet.render
  rw [Text.cutAt_joinLines hne fun l hl => (hread.unbroken l hl).oneLine]
  simp

/-- Only the first line of the end opens a result; the others differ from it in their margins. -/
theorem count_endLines (type status : String) (fields : List (String × String)) :
    (endLines type status fields).count "  return \x7b" = 1 := by
  have hdeep {l : String} (h : [' ', ' ', ' '] <+: l.toList) : l ≠ "  return \x7b" := by
    rintro rfl
    revert h
    decide
  have hrest : ∀ l ∈ (endLines type status fields).tail, l ≠ "  return \x7b" := by
    intro l hl
    rcases List.mem_append.mp hl with hl | hl
    · rcases List.mem_cons.mp hl with rfl | hl
      · exact hdeep (by simp)
      · obtain ⟨f, _, rfl⟩ := List.mem_map.mp hl
        exact hdeep (by simp)
    · simp only [List.mem_cons, List.not_mem_nil, or_false] at hl
      rcases hl with rfl | rfl | rfl
      · exact hdeep (by simp)
      · decide
      · decide
  have hcons : endLines type status fields =
      "  return \x7b" :: (endLines type status fields).tail := rfl
  rw [hcons, List.count_cons_self, List.count_eq_zero.mpr fun hmem => hrest _ hmem rfl]

/-- Where the function of a node can be written, its text has one line that opens a result. From this
line on it tells the type of the result, fields that each end in a comma, and the status, and then the
result and the function are closed. Type and status stand in the table, and a tag that does not is its
own type and skipped. -/
theorem a_function_ends_in_its_one_result (n : PlannedNode) (c : Choices) (text : String)
    (hn : Scheduled n) (htext : (NodeFunction.text n c).outcome = .ok text) :
    (Text.splitAt '\n' text).count "  return \x7b" = 1 ∧
      ∃ front fields, Text.splitAt '\n' text =
        front ++ endLines (resultOfTag n.tag).1 (resultOfTag n.tag).2 fields := by
  obtain ⟨sheet, hsheet, hlines⟩ := splitAt_text hn.isFunctionName htext
  obtain ⟨front, fields, hsplit, hfront⟩ := lines_of_build hsheet
  have hopens : startsWith Reserved.result.start "  return \x7b" = true := by decide
  have hnone : front.count "  return \x7b" = 0 := by
    refine List.count_eq_zero.mpr fun hmem => ?_
    cases hopens.symm.trans (hfront _ hmem)
  refine ⟨?_, front, fields, ?_⟩
  · rw [hlines, hsplit, List.count_append, hnone, count_endLines]
  · rw [hlines, hsplit, resultOfTag_eq]

/-- A node that has the first line of a result in its id, in its description and in what it maps. -/
def returnMapper : Node := ⟨"\n  return \x7b", "transform.data_mapper",
  [("description", .text "\n  return \x7b\n"),
    ("mapping", .object [("  return \x7b", .text "\n  return \x7b\n")])]⟩

/-- A node of a tag that is none, and would break the line if it were written as it is. -/
def returnStranger : Node := ⟨"n", "utility.delay\n  return \x7b", []⟩

theorem results_stand_apart_from_what_nodes_carry :
    (∃ text front fields,
      (NodeFunction.text (.ofNode returnMapper "") ⟨none, true, true, true, "", ""⟩).outcome =
        .ok text ∧
      (Text.splitAt '\n' text).count "  return \x7b" = 1 ∧
      Text.splitAt '\n' text = front ++ endLines "data_mapper" "transformed" fields) ∧
    ∃ text front fields,
      (NodeFunction.text (.ofNode returnStranger "") ⟨none, true, true, true, "", ""⟩).outcome =
        .ok text ∧
      (Text.splitAt '\n' text).count "  return \x7b" = 1 ∧
      Text.splitAt '\n' text =
        front ++ endLines "utility.delay\n  return \x7b" "skipped" fields := by
  constructor
  · obtain ⟨text, htext⟩ : ∃ text, (NodeFunction.text (.ofNode returnMapper "")
      ⟨none, true, true, true, "", ""⟩).outcome = .ok text := ⟨_, rfl⟩
    obtain ⟨hcount, front, fields, hlines⟩ :=
      a_function_ends_in_its_one_result _ _ text (.alone returnMapper) htext
    exact ⟨text, front, fields, htext, hcount, hlines⟩
  · obtain ⟨text, htext⟩ : ∃ text, (NodeFunction.text (.ofNode returnStranger "")
      ⟨none, true, true, true, "", ""⟩).outcome = .ok text := ⟨_, rfl⟩
    obtain ⟨hcount, front, fields, hlines⟩ :=
      a_function_ends_in_its_one_result _ _ text (.alone returnStranger) htext
    exact ⟨text, front, fields, htext, hcount, hlines⟩

end Flowscript
