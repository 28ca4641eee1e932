-- The bodies of all recipes leave the lexer as it was, whatever the
-- configuration of the node is.
import Flowscript.Proofs.Printing
import Flowscript.Proofs.Writing
import Flowscript.Recipe.Table

namespace Flowscript.Lexer

open Recipe

/-! ## Outlines -/

/-- The lines of the fields of a result. -/
def fieldSteps (fields : List (String × Part)) : List Step :=
  fields.map fun (name, value) => .line [name, ": ", value, ","]

/-- The steps of an outline leave the lexer as it was, and so do the fields of its result. -/
structure OutlineReads (o : Outline) : Prop where
  steps : StepsNeutral o.steps
  fields : StepsNeutral (fieldSteps o.fields)

/-- Every outline that a recipe gives leaves the lexer as it was. -/
def RecipeReads (r : Recipe) : Prop :=
  ∀ n c o, (r.outline n c).outcome = .ok o → OutlineReads o

theorem neutral_resultSteps (result status : String) {fields : List (String × Part)}
    (h : StepsNeutral (fieldSteps fields)) :
    StepsNeutral (resultSteps result status fields) := by
  intro closers
  have hopen : StepsRead ⟨.code, closers⟩ (code ["return \x7b"] ++
      [.deeper, .line ["type: ", Expr.literal (.text result), ","]]) []
      ⟨.code, '\x7d' :: closers⟩ := by
    repeat' constructor
  have hclose : StepsRead ⟨.code, '\x7d' :: closers⟩
      ([.line ["status: ", Expr.literal (.text status)], .back] ++ code ["\x7d;"]) []
      ⟨.code, closers⟩ := by
    repeat' constructor
  unfold resultSteps
  rw [List.append_assoc]
  exact (hopen.append (h _)).append hclose

theorem RecipeReads.body {r : Recipe} (h : RecipeReads r) {n : PlannedNode} {c : Choices}
    {steps : List Step} (hbody : (r.body n c).outcome = .ok steps) : StepsNeutral steps := by
  obtain ⟨o, ho, rfl, -⟩ := Recipe.body_eq_ok.mp hbody
  have hread := h n c o ho
  exact hread.steps.append (neutral_resultSteps _ _ hread.fields)

theorem neutral_optionalFields {config : Fields} {target : List Char}
    (hp : startsPlain target = true) (ht : target.all isInert = true)
    {keys : List (String × String)} (hk : ∀ k ∈ keys, Inert k.2) :
    StepsNeutral (optionalFields config (String.ofList target) keys) := by
  induction keys with
  | nil => exact fun _ => .nil
  | cons k rest ih =>
    obtain ⟨key, name⟩ := k
    have hname : Inert name := hk (key, name) (by simp)
    have hrest := ih fun x hx => hk x (List.mem_cons_of_mem _ hx)
    intro closers
    unfold optionalFields at hrest ⊢
    simp only [List.filterMap_cons]
    cases Config.get? config key with
    | none => exact hrest closers
    | some v =>
      have hparts : PartsRead ⟨.code, closers⟩ [.text (String.ofList target), .text ".", .text name,
          .text " = ", .expr (Expr.ofText v), .text ";"] ⟨.code, closers⟩ := by
        refine .text (neutral_of_inert (inert_ofList (List.all_eq_true.mp ht))).reads (.fixed rfl rfl
          (.text (neutral_of_inert hname).reads ?_))
        repeat' constructor
      exact .line rfl (.fixed hp) hparts rfl (hrest closers)

theorem neutral_openSheet : StepsNeutral openSheet := by
  intro closers
  repeat' constructor

/-! ## Triggers -/

theorem timeTrigger_reads : RecipeReads timeTrigger := by
  intro n c o ho
  cases ho
  constructor
  all_goals
    intro closers
    repeat' constructor

theorem webhookTrigger_reads : RecipeReads webhookTrigger := by
  intro n c o ho
  cases ho
  constructor
  all_goals
    intro closers
    repeat' constructor

theorem gmailTrigger_reads : RecipeReads gmailTrigger := by
  intro n c o ho
  obtain ⟨_, _, ho⟩ := Traced.bind_eq_ok.mp ho
  obtain ⟨maxResults, _, ho⟩ := Traced.bind_eq_ok.mp ho
  cases ho
  constructor
  all_goals
    intro closers
    repeat' constructor

theorem sheetsTrigger_reads : RecipeReads sheetsTrigger := by
  intro n c o ho
  cases ho
  constructor
  all_goals
    intro closers
    repeat' constructor

/-! ## Mail, sheets and files -/

theorem gmailSend_reads : RecipeReads gmailSend := by
  intro n c o ho
  cases ho
  refine ⟨?_, fun closers => by repeat' constructor⟩
  refine .append (.append (.append ?_ (neutral_optionalFields rfl rfl (by decide))) ?_) ?_
  · intro closers
    cases Config.flag n.config "htmlBody"
    all_goals repeat' constructor
  · intro closers
    split
    all_goals repeat' constructor
  · intro closers
    repeat' constructor

theorem gmailRead_reads : RecipeReads gmailRead := by
  intro n c o ho
  obtain ⟨_, _, ho⟩ := Traced.bind_eq_ok.mp ho
  obtain ⟨maxResults, _, ho⟩ := Traced.bind_eq_ok.mp ho
  cases ho
  constructor
  all_goals
    intro closers
    repeat' constructor

theorem sheetsAppend_reads : RecipeReads sheetsAppend := by
  intro n c o ho
  simp only [sheetsAppend] at ho
  split at ho
  · cases ho
    refine ⟨?_, fun closers => by repeat' constructor⟩
    refine .append (.append (.append ?_ ?_) neutral_openSheet) ?_
    · intro closers
      repeat' constructor
    · intro closers
      split
      all_goals repeat' constructor
    · intro closers
      repeat' constructor
  · cases ho

theorem sheetsRead_reads : RecipeReads sheetsRead := by
  intro n c o ho
  cases ho
  cases Config.flag n.config "hasHeaders"
  all_goals
    constructor
    all_goals
      intro closers
      repeat' constructor

theorem driveCreate_reads : RecipeReads driveCreate := by
  intro n c o ho
  cases ho
  constructor
  all_goals
    intro closers
    repeat' constructor

/-! ## Services -/

/-- The call is read as its address is. -/
theorem neutral_callSteps {url : Part}
    (hurl : ∀ {closers parts t}, PartsRead ⟨.code, closers⟩ parts t →
      PartsRead ⟨.code, closers⟩ (url :: parts) t) : StepsNeutral (callSteps url) := by
  intro closers
  have hfetch : PartsRead ⟨.code, closers⟩
      ["const response = UrlFetchApp.fetch(", url, ", options);"] ⟨.code, closers⟩ :=
    .fixed rfl rfl (hurl (.fixed rfl rfl .nil))
  refine .slot (.slot (.line rfl (.fixed rfl) hfetch rfl (.slot ?_)))
  repeat' first | with_reducible apply PartsRead.joined | constructor

theorem httpRequest_reads : RecipeReads httpRequest := by
  intro n c o ho
  obtain ⟨verb, _, ho⟩ := Traced.bind_eq_ok.mp ho
  cases ho
  refine ⟨?_, fun closers => by repeat' constructor⟩
  refine .append (.append ?_ ?_) (neutral_callSteps fun h => .fixed rfl rfl h)
  · intro closers
    repeat' constructor
  · intro closers
    split
    all_goals repeat' constructor

theorem slackPost_reads : RecipeReads slackPost := by
  intro n c o ho
  cases ho
  refine ⟨?_, fun closers => by repeat' constructor⟩
  have hoptions : StepsNeutral (code ["const options = \x7b"] ++ [.deeper] ++
      code ["method: 'post',", "contentType: 'application/json',", "headers: \x7b\x7d,",
        "payload: JSON.stringify(message),", "muteHttpExceptions: true"] ++
      [.back] ++ code ["\x7d;"]) := by
    intro closers
    repeat' constructor
  have hcheck : StepsNeutral (code ["if (responseData && responseData.ok === false) \x7b",
      "  throw new Error('Slack API error: ' + responseData.error);", "\x7d"]) := by
    intro closers
    repeat' constructor
  have hcall (url : Expr) : StepsNeutral (callSteps url) := neutral_callSteps fun h => .expr h
  have htail (url : Expr) := hoptions.append ((hcall url).append hcheck)
  simp only [List.append_assoc] at htail ⊢
  refine .append ?_ (.append ?_ (.append ?_ (htail _)))
  · intro closers
    repeat' constructor
  · intro closers
    repeat' constructor
  · exact neutral_optionalFields rfl rfl (by decide)

/-! ## Conditions, mappings, pauses and logs -/

theorem neutral_comparisons : ∀ e ∈ comparisons, Neutral e.2 := by
  unfold comparisons
  simp only [List.forall_mem_cons]
  refine ⟨?_, ?_, ?_, ?_, ?_, ?_, ?_, ?_, ?_, nofun⟩
  all_goals exact neutral_fixed (fun _ => rfl) rfl

theorem neutral_comparisonCode {id operator x : String}
    (h : (comparisonCode id operator).outcome = .ok x) : Neutral x := by
  unfold comparisonCode at h
  split at h
  · rename_i expression he
    cases h
    obtain ⟨before, after, hsplit, _⟩ := List.lookup_eq_some_iff.mp he
    exact neutral_comparisons (operator, x) (by rw [hsplit]; simp)
  · cases h
    exact neutral_fixed (fun _ => rfl) rfl

theorem condition_reads : RecipeReads condition := by
  intro n c o ho
  obtain ⟨operator, _, ho⟩ := Traced.bind_eq_ok.mp ho
  obtain ⟨expression, he, ho⟩ := Traced.bind_eq_ok.mp ho
  cases ho
  refine ⟨fun closers => ?_, fun closers => by repeat' constructor⟩
  have hresult : PartsRead ⟨.code, closers⟩ ["const result = ", expression, ";"]
      ⟨.code, closers⟩ := by
    refine .fixed rfl rfl (.text (neutral_comparisonCode he).reads ?_)
    repeat' constructor
  repeat' first | exact hresult | constructor

theorem neutral_mapping (mapping : List (String × Value)) :
    StepsNeutral (mapping.map fun (target, value) =>
      .line ["transformedData[", Expr.literal (.text target), "] = ", Expr.ofValue value, ";"]) := by
  intro closers
  induction mapping with
  | nil => exact .nil
  | cons entry rest ih =>
    rw [List.map_cons]
    repeat' first | exact ih | constructor

theorem dataMapper_reads : RecipeReads dataMapper := by
  intro n c o ho
  simp only [dataMapper] at ho
  split at ho
  · rename_i mapping _
    cases ho
    refine ⟨?_, fun closers => by repeat' constructor⟩
    refine .append (.append ?_ ?_) (neutral_mapping mapping)
    · intro closers
      split
      all_goals repeat' constructor
    · intro closers
      repeat' constructor
  · cases ho

theorem delay_reads : RecipeReads delay := by
  intro n c o ho
  obtain ⟨milliseconds, _, ho⟩ := Traced.bind_eq_ok.mp ho
  obtain ⟨seconds, _, ho⟩ := Traced.bind_eq_ok.mp ho
  obtain ⟨total, _, ho⟩ := Traced.bind_eq_ok.mp ho
  cases ho
  constructor
  all_goals
    intro closers
    repeat' constructor

theorem logger_reads : RecipeReads logger := by
  intro n c o ho
  obtain ⟨level, _, ho⟩ := Traced.bind_eq_ok.mp ho
  cases ho
  refine ⟨?_, fun closers => by repeat' constructor⟩
  refine .append ?_ ?_
  · intro closers
    repeat' constructor
  · intro closers
    split
    all_goals repeat' constructor

theorem unknown_reads : RecipeReads unknown := by
  intro n c o ho
  cases ho
  constructor
  all_goals
    intro closers
    repeat' constructor

/-- Every body that a node's recipe gives leaves the lexer as it was and has no landmark. -/
theorem neutral_body {n : PlannedNode} {c : Choices} {steps : List Step}
    (h : (n.recipe.body n c).outcome = .ok steps) : StepsNeutral steps := by
  have hkind : ∀ k : Kind, RecipeReads k.recipe := by
    intro k
    cases k with
    | timeTrigger => exact timeTrigger_reads
    | webhookTrigger => exact webhookTrigger_reads
    | gmailTrigger => exact gmailTrigger_reads
    | sheetsTrigger => exact sheetsTrigger_reads
    | gmailSend => exact gmailSend_reads
    | gmailRead => exact gmailRead_reads
    | sheetsAppend => exact sheetsAppend_reads
    | sheetsRead => exact sheetsRead_reads
    | driveCreate => exact driveCreate_reads
    | httpRequest => exact httpRequest_reads
    | slackPost => exact slackPost_reads
    | condition => exact condition_reads
    | dataMapper => exact dataMapper_reads
    | delay => exact delay_reads
    | logger => exact logger_reads
  refine RecipeReads.body ?_ h
  unfold PlannedNode.recipe Recipe.ofTag
  split
  · exact hkind _
  · exact unknown_reads

end Flowscript.Lexer
