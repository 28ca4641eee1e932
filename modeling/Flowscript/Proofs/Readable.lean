-- Readable configurations. Where every setting of a node could have been read
-- from a text, the whole numbers that are made of the settings can be printed,
-- and so can every line of the function of the node.
import Flowscript.Proofs.ReadNumbers
import Flowscript.Proofs.Verbatim

namespace Flowscript

open Value (HasNumbers Readable)

/-! ## Settings -/

theorem Value.HasNumbers.get {whole : Int → Prop} {config : Fields}
    (h : HasNumbers whole (.object config)) {key : String} {v : Value}
    (hv : config.get? key = some v) : HasNumbers whole v := by
  cases h with
  | object hfields => exact hfields _ (Fields.mem_of_get? hv)

/-- A setting has numbers as the configuration does, if its default does. -/
theorem Value.HasNumbers.getD {whole : Int → Prop} {config : Fields}
    (h : HasNumbers whole (.object config)) (key : String) {default : Value}
    (hdefault : HasNumbers whole default) : HasNumbers whole (Config.getD config key default) := by
  rcases Config.getD_cases config key default with hv | hv
  · rw [hv]
    exact hdefault
  · exact h.get hv

theorem Value.Readable.getText {config : Fields} (h : Readable (.object config))
    (key default : String) : (Config.getText config key default).isPrintable = true :=
  Readable.isPrintable (h.getD key (.text default))

theorem Value.Readable.getD_null {config : Fields} (h : Readable (.object config)) (key : String) :
    (Config.getD config key .null).isPrintable = true :=
  Readable.isPrintable (h.getD key .null)

/-- The whole number that is made of a readable setting can be printed. -/
theorem Value.Readable.isShort_whole {config : Fields} (h : Readable (.object config))
    {id key : String} {default k : Int} (hdefault : isShort default = true)
    (hk : Config.whole id config key default = .ok k) : isShort k = true := by
  have hv : Readable (Config.getD config key (.int default)) := h.getD key (.int hdefault)
  unfold Config.whole at hk
  generalize Config.getD config key (.int default) = v at hk hv
  dsimp only at hk
  split at hk
  · rw [Config.refuse_eq] at hk
    cases hk
  · split at hk
    · rename_i hwhole
      cases hk
      exact hv.isShort_toWhole hwhole
    · cases hk
    · rw [Config.refuse_eq] at hk
      cases hk

/-! ## Lines -/

/-- Every line that the steps write can be printed. -/
def printable (steps : List Step) : Bool := steps.all Step.isPrintable

section

variable (steps steps' : List Step)

@[simp]
theorem printable_nil : printable [] = true := rfl

@[simp]
theorem printable_line (parts : List Part) :
    printable (.line parts :: steps) = (parts.all Part.isPrintable && printable steps) := rfl

@[simp]
theorem printable_slot (kind : SlotKind) : printable (.slot kind :: steps) = printable steps := rfl

@[simp]
theorem printable_deeper : printable (.deeper :: steps) = printable steps := rfl

@[simp]
theorem printable_back : printable (.back :: steps) = printable steps := rfl

@[simp]
theorem printable_append : printable (steps ++ steps') = (printable steps && printable steps') :=
  List.all_append

@[simp]
theorem printable_code (lines : List String) : printable (Recipe.code lines) = true := by
  rw [printable, Recipe.code, List.all_map, List.all_eq_true]
  exact fun _ _ => rfl

@[simp]
theorem printable_remark (text : String) :
    printable (Recipe.remark text :: steps) = printable steps := rfl

@[simp]
theorem printable_constant (name : String) (e : Expr) :
    printable (Recipe.constant name e :: steps) = (e.value.isPrintable && printable steps) := by
  simp [Recipe.constant, Part.isPrintable]

@[simp]
theorem printable_ite (p : Prop) [Decidable p] :
    printable (if p then steps else steps') = if p then printable steps else printable steps' :=
  apply_ite printable p steps steps'

end

@[simp]
theorem isPrintable_text (s : String) : (Value.text s).isPrintable = true := rfl

theorem Expr.value_ofValue (v : Value) : (Expr.ofValue v).value = v := by
  unfold Expr.ofValue
  split
  · split <;> rfl
  · rfl
  · rfl
  · rfl

namespace Recipe

theorem printable_resultSteps (result status : String) (fields : List (String × Part)) :
    printable (resultSteps result status fields) = fields.all fun f => f.2.isPrintable := by
  have hfields : printable (fields.map fun f => .line [f.1, ": ", f.2, ","]) =
      fields.all fun f => f.2.isPrintable := by
    rw [printable, List.all_map]
    simp [Function.comp_def, Step.isPrintable, Part.isPrintable]
  unfold resultSteps
  simp [hfields, Part.isPrintable, Expr.value]

theorem printable_optionalFields {config : Fields} (h : Readable (.object config))
    (target : String) (keys : List (String × String)) :
    printable (optionalFields config target keys) = true := by
  rw [printable, List.all_eq_true]
  intro step hstep
  obtain ⟨⟨key, name⟩, _, hstep⟩ := List.mem_filterMap.mp hstep
  obtain ⟨v, hv, rfl⟩ := Option.map_eq_some_iff.mp hstep
  have hprint := Readable.isPrintable (h.get (Config.get?_eq_some hv))
  simp [Step.isPrintable, Part.isPrintable, Expr.value, hprint]

/-- A pause that was cut short has few digits. -/
theorem isShort_cappedDelay {id : String} {total k : Int}
    (h : (cappedDelay id total).outcome = .ok k) : isShort k = true := by
  have hbounds : 0 ≤ k ∧ k ≤ maxDelay := by
    unfold cappedDelay at h
    split at h
    · obtain ⟨shown, _, h⟩ := Traced.bind_eq_ok.mp h
      cases h
      decide
    · cases h
      unfold maxDelay at *
      omega
  have hlt : k.natAbs < 10 ^ 6 := by
    unfold maxDelay at hbounds
    omega
  exact isShort_iff.mpr (Nat.lt_of_lt_of_le hlt (Nat.pow_le_pow_right (by decide) (by decide)))

theorem isPrintable_rowsOf {items : List Value} (h : (Value.list items).isPrintable = true) :
    (Value.list (rowsOf items)).isPrintable = true := by
  unfold rowsOf
  dsimp only
  split
  · exact h
  · exact Value.isPrintable_list.mpr (List.forall_mem_singleton.mpr h)

theorem printable_mapping {mapping : Fields} (h : (Value.object mapping).isPrintable = true) :
    printable (mapping.map fun (target, value) =>
      .line ["transformedData[", Expr.literal (.text target), "] = ", Expr.ofValue value, ";"]) =
      true := by
  rw [printable, List.all_map, List.all_eq_true]
  intro f hf
  have htarget : (Expr.literal (.text f.1)).value.isPrintable = true := rfl
  have hvalue : (Expr.ofValue f.2).value.isPrintable = true := by
    rw [Expr.value_ofValue]
    exact Value.isPrintable_object.mp h f hf
  simp [Step.isPrintable, Part.isPrintable, htarget, hvalue]

theorem printable_outline {n : PlannedNode} {c : Choices} {o : Outline}
    (hconfig : Readable (.object n.config)) (h : (n.recipe.outline n c).outcome = .ok o) :
    printable o.steps = true ∧ (o.fields.all fun f => f.2.isPrintable) = true := by
  have htext := hconfig.getText
  have hoptional := printable_optionalFields hconfig
  have hnone : Readable (.object []) := .object fun _ hf => absurd hf List.not_mem_nil
  cases hk : n.kind? with
  | none =>
    rw [PlannedNode.recipe_of_none hk] at h
    cases h
    exact ⟨rfl, rfl⟩
  | some k =>
    rw [PlannedNode.recipe_of_kind hk] at h
    cases k with
    | timeTrigger =>
      cases h
      have hschedule : (reportedSchedule n.config).isPrintable = true :=
        Readable.isPrintable (hconfig.getD "schedule" (hconfig.getD "cron" (.text "@daily")))
      refine ⟨rfl, ?_⟩
      simp [Part.isPrintable, Expr.value, reportedZone, htext, hschedule]
    | webhookTrigger =>
      cases h
      exact ⟨rfl, rfl⟩
    | gmailTrigger | gmailRead =>
      obtain ⟨_, _, h⟩ := Traced.bind_eq_ok.mp h
      obtain ⟨k, hk, h⟩ := Traced.bind_eq_ok.mp h
      cases h
      have hshort : isShort k = true := hconfig.isShort_whole (by decide) hk
      refine ⟨?_, rfl⟩
      simp [Part.isPrintable, Expr.value, htext, hshort, Value.isPrintable]
    | sheetsTrigger | driveCreate =>
      cases h
      refine ⟨?_, rfl⟩
      simp [Expr.value, htext, openSheet]
    | gmailSend =>
      cases h
      refine ⟨?_, rfl⟩
      simp [Expr.value, htext, hoptional]
    | sheetsRead =>
      cases h
      refine ⟨?_, ?_⟩
      · simp [Expr.value, htext, openSheet]
      · dsimp only
        split <;> rfl
    | delay =>
      obtain ⟨milliseconds, _, h⟩ := Traced.bind_eq_ok.mp h
      obtain ⟨seconds, _, h⟩ := Traced.bind_eq_ok.mp h
      obtain ⟨total, htotal, h⟩ := Traced.bind_eq_ok.mp h
      cases h
      refine ⟨?_, rfl⟩
      simp [Part.isPrintable, isShort_cappedDelay htotal]
    | condition =>
      obtain ⟨operator, _, h⟩ := Traced.bind_eq_ok.mp h
      obtain ⟨expression, _, h⟩ := Traced.bind_eq_ok.mp h
      cases h
      refine ⟨?_, rfl⟩
      simp [Part.isPrintable, Expr.value, htext]
    | httpRequest =>
      obtain ⟨_, _, h⟩ := Traced.bind_eq_ok.mp h
      cases h
      have hheaders := Readable.isPrintable (hconfig.getD "headers" hnone)
      have hpayload := Readable.isPrintable (hconfig.getD "payload" (hconfig.getD "body" hnone))
      refine ⟨?_, rfl⟩
      simp [Part.isPrintable, Expr.value, htext, hheaders, hpayload, callSteps]
    | logger =>
      obtain ⟨_, _, h⟩ := Traced.bind_eq_ok.mp h
      cases h
      refine ⟨?_, rfl⟩
      simp [Part.isPrintable, Expr.value, htext, logSheetParts]
    | slackPost =>
      cases h
      have hmessage :
          (Config.getD n.config "text" (Config.getText n.config "message" "")).isPrintable = true :=
        Readable.isPrintable (hconfig.getD "text" (hconfig.getD "message" (.text "")))
      refine ⟨?_, rfl⟩
      simp [Part.isPrintable, Expr.value, htext, hoptional, hmessage, callSteps]
    | sheetsAppend =>
      simp only [Kind.recipe, sheetsAppend] at h
      split at h
      · rename_i items hitems
        cases h
        have hvalues : (Value.list items).isPrintable = true := by
          rw [← hitems]
          exact Readable.isPrintable
            (hconfig.getD "values" (.list fun _ hv => absurd hv List.not_mem_nil))
        refine ⟨?_, rfl⟩
        simp [Part.isPrintable, Expr.value, htext, openSheet, rowSteps, isPrintable_rowsOf hvalues]
      · cases h
    | dataMapper =>
      simp only [Kind.recipe, dataMapper] at h
      split at h
      · rename_i mapping hmapping
        cases h
        have hobject : (Value.object mapping).isPrintable = true := by
          rw [← hmapping]
          exact Readable.isPrintable (hconfig.getD "mapping" hnone)
        refine ⟨?_, rfl⟩
        dsimp only
        rw [printable_append, printable_mapping hobject]
        split <;> simp [Part.isPrintable, Expr.value, htext]
      · cases h

end Recipe

/-! ## Facts -/

/-- What the snippets write of the facts can be printed. -/
structure Facts.Printable (f : Facts) : Prop where
  slug : f.slug.isPrintable = true
  authType : f.authType.isPrintable = true
  apiKeyHeader : f.apiKeyHeader.isPrintable = true
  tokenProperty : f.tokenProperty.isPrintable = true
  apiKeyProperty : f.apiKeyProperty.isPrintable = true
  usernameProperty : f.usernameProperty.isPrintable = true
  passwordProperty : f.passwordProperty.isPrintable = true
  accessTokenProperty : f.accessTokenProperty.isPrintable = true
  requestsPerMinute : f.requestsPerMinute.isPrintable = true
  windowMs : f.windowMs.isPrintable = true

theorem Value.Readable.rateLimits {config : Fields} (h : Readable (.object config)) :
    Readable (.object (Recipe.rateLimits config)) := by
  unfold Recipe.rateLimits
  split
  · rename_i fields hfields
    exact h.get hfields
  · exact .object fun _ hf => absurd hf List.not_mem_nil

theorem Recipe.printable_serviceFacts {s : Service} {n : PlannedNode} {c : Choices} {f : Facts}
    (hconfig : Readable (.object n.config)) (hscheme : Readable s.scheme)
    (h : serviceFacts s n c = .ok f) : f.Printable := by
  obtain ⟨_, own, requests, window, hown, hrequests, hwindow, _, hfirst, hsecond⟩ :=
    limits_of_serviceFacts h
  have hlimits := hconfig.rateLimits
  have hown := hconfig.isShort_whole (by decide) hown
  have hrequests := hlimits.isShort_whole hown hrequests
  have hwindow := hlimits.isShort_whole (by decide) hwindow
  obtain ⟨requests', window', rfl⟩ := serviceFacts_eq_ok h
  cases hfirst
  cases hsecond
  have hauth := Readable.isPrintable (hconfig.getD "authType" hscheme)
  have hproperty := hconfig.getD_null
  exact ⟨rfl, hauth, rfl, hproperty _, hproperty _, hproperty _, hproperty _, hproperty _,
    hrequests, hwindow⟩

theorem printable_default (rateLimiting : Bool) : Facts.Printable { rateLimiting } :=
  ⟨rfl, rfl, rfl, rfl, rfl, rfl, rfl, rfl, (by decide : isShort 60 = true),
    (by decide : isShort 60000 = true)⟩

theorem Recipe.printable_pollingFacts {source : String} {n : PlannedNode} {c : Choices} {f : Facts}
    (h : pollingFacts source n c = .ok f) : f.Printable := by
  obtain ⟨hours, _, rfl⟩ := pollingFacts_eq_ok h
  exact ⟨rfl, rfl, rfl, rfl, rfl, rfl, rfl, rfl, (by decide : isShort 60 = true),
    (by decide : isShort 60000 = true)⟩

/-- Where the settings of a node are readable, whatever its snippets write can be printed. -/
theorem printable_facts {n : PlannedNode} {c : Choices} {f : Facts}
    (hconfig : Readable (.object n.config)) (h : n.recipe.facts n c = .ok f) : f.Printable := by
  cases hk : n.kind? with
  | none =>
    rw [PlannedNode.recipe_of_none hk] at h
    cases h
    exact printable_default _
  | some k =>
    rw [PlannedNode.recipe_of_kind hk] at h
    cases k with
    | gmailTrigger | sheetsTrigger => exact Recipe.printable_pollingFacts h
    | httpRequest => exact Recipe.printable_serviceFacts hconfig .null h
    | slackPost => exact Recipe.printable_serviceFacts hconfig (.text "bearer") h
    | _ =>
      cases h
      exact printable_default _

end Flowscript
