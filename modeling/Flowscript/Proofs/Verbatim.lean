-- Settings that bodies have as they are. A body resolves most texts of its
-- configuration when the script runs. What it writes as plain literals is
-- listed here by the kind of the node, and in the body of every node that is
-- no trigger each other text with a placeholder is deferred.
import Flowscript.Proofs.Credentials
import Flowscript.Proofs.Deferral

namespace Flowscript

open Lexer (Token tokens lineTokens Mentions Scans Written heldWord)

/-! ## Settings that are written out -/

/-- The settings that the function of a node of the kind has as they are. -/
def Kind.keptSettings : Kind → List String
  | .sheetsAppend => ["spreadsheetId", "sheetName"]
  | .sheetsRead => ["spreadsheetId", "sheetName", "range"]
  | .driveCreate => ["mimeType", "folderId"]
  | .logger => ["logSpreadsheetId", "logSheetName"]
  | .httpRequest | .slackPost => overrideKeys
  | _ => []

/-- What the check of a response says first. -/
def errorStart (name : String) : String := name ++ " API error ("

/-- The settings of a connector whose text is written out, with how it is spelled. -/
def connectorSettings : List (String × (String → String)) :=
  [("connector", id), ("connector", errorStart), ("connectorName", errorStart), ("apiKeyHeader", id)]

/-- The settings whose text the function of a node of the kind has, with how it is spelled there. -/
def Kind.spelledSettings : Kind → List (String × (String → String))
  | .httpRequest => ("method", Text.upper) :: connectorSettings
  | .slackPost => connectorSettings
  | .condition => [("operator", id)]
  | .logger => [("level", Text.lower)]
  | _ => []

/-- The texts that the function of a node has as they are: texts of certain settings, the names of a
mapping, and the tag of a node of no known kind. -/
inductive Verbatim (n : PlannedNode) (s : String) : Prop where
  | kept {k : Kind} {key : String} {v : Value} (hkind : n.kind? = some k)
      (hkey : key ∈ k.keptSettings) (hv : n.config.get? key = some v) (hs : Mentions v s) :
      Verbatim n s
  | spelled {k : Kind} {key : String} {spelling : String → String} {v : Value}
      (hkind : n.kind? = some k) (hkey : (key, spelling) ∈ k.spelledSettings)
      (hv : n.config.get? key = some v) (hs : s = spelling v.plain) : Verbatim n s
  | name {mapping : Fields} {v : Value} (hkind : n.kind? = some .dataMapper)
      (hv : n.config.get? "mapping" = some (.object mapping)) (hs : (s, v) ∈ mapping) :
      Verbatim n s
  | tag (hkind : n.kind? = none) (hs : s = n.tag) : Verbatim n s

theorem Fields.mem_of_get? {fields : Fields} {key : String} {v : Value}
    (h : fields.get? key = some v) : (key, v) ∈ fields := by
  obtain ⟨before, after, rfl, _⟩ := List.lookup_eq_some_iff.mp h
  exact List.mem_append_right _ (List.mem_cons_self ..)

theorem Config.get?_eq_some {config : Fields} {key : String} {v : Value}
    (h : Config.get? config key = some v) : config.get? key = some v := by
  unfold Config.get? at h
  split at h
  · cases h
  · cases h
  · cases h
  · rename_i w hw
    cases h
    exact hw

theorem Config.getD_cases (config : Fields) (key : String) (default : Value) :
    Config.getD config key default = default ∨
      config.get? key = some (Config.getD config key default) := by
  unfold Config.getD
  cases h : Config.get? config key with
  | none => exact Or.inl rfl
  | some v => exact Or.inr (Config.get?_eq_some h)

section

variable {A : String → Prop}

/-- The value has neither texts nor names. -/
theorem settled_mute {v : Value} (h : ∀ s, ¬ Mentions v s) : Settled A (.literal v) :=
  settled_literal fun s hs => absurd hs (h s)

theorem settled_ofValue (v : Value) : Settled A (.ofValue v) := by
  cases v with
  | text s =>
    rw [Expr.ofValue]
    split
    · exact settled_contextValue _
    · exact settled_ofText _
  | list items => exact settled_resolved _
  | object fields => exact settled_resolved _
  | null => exact settled_mute (by rintro s ⟨⟩)
  | bool b => exact settled_mute (by rintro s ⟨⟩)
  | int k => exact settled_mute (by rintro s ⟨⟩)
  | real x => exact settled_mute (by rintro s ⟨⟩)

theorem stepsSettled_ite {p : Prop} [Decidable p] {steps : List Step} (h : StepsSettled A steps) :
    StepsSettled A (if p then steps else []) := by
  split
  · exact h
  · exact stepsSettled_nil

theorem stepsSettled_optionalFields (config : Fields) (target : String)
    (keys : List (String × String)) :
    StepsSettled A (Recipe.optionalFields config target keys) := by
  intro st hst
  obtain ⟨key, _, hst⟩ := List.mem_filterMap.mp hst
  obtain ⟨v, _, rfl⟩ := Option.map_eq_some_iff.mp hst
  simp [settled_ofText]

theorem stepsSettled_openSheet : StepsSettled A Recipe.openSheet := stepsSettled_code _

/-- No field of a result is an expression. -/
theorem settled_fields {fields : List (String × Part)}
    (h : (fields.all fun f => f.2.fixed?.isSome) = true) :
    ∀ f ∈ fields, ∀ e, f.2 = .expr e → Settled A e := by
  intro f hf e he
  have hfixed := List.all_eq_true.mp h f hf
  rw [he] at hfixed
  cases hfixed

end

section

variable {n : PlannedNode} {k : Kind} (hkind : n.kind? = some k)
include hkind

theorem settled_kept {key : String} {default : Value} (hkey : key ∈ k.keptSettings)
    (hdefault : Settled (Verbatim n) (.literal default)) :
    Settled (Verbatim n) (.literal (Config.getD n.config key default)) := by
  rcases Config.getD_cases n.config key default with hv | hv
  · rw [hv]
    exact hdefault
  · exact settled_literal fun s hs _ => .kept hkind hkey hv hs

theorem settled_keptText {key : String} {cs : List Char} (hkey : key ∈ k.keptSettings)
    (hcs : cs.contains '\x7b' = false) :
    Settled (Verbatim n) (.literal (Config.getText n.config key (String.ofList cs))) :=
  settled_kept hkind hkey (settled_fixed (Placeholder.occursIn_fixed hcs))

theorem verbatim_spelled {key default : String} {spelling : String → String}
    (hkey : (key, spelling) ∈ k.spelledSettings)
    (hdefault : Placeholder.occursIn (spelling default) = false)
    (h : Placeholder.occursIn (spelling (Config.getText n.config key default).plain) = true) :
    Verbatim n (spelling (Config.getText n.config key default).plain) := by
  rcases Config.getD_cases n.config key (.text default) with hv | hv
  · rw [Config.getText, hv, Value.plain, hdefault] at h
    cases h
  · exact .spelled hkind hkey hv rfl

theorem settled_spelled {key default : String} {spelling : String → String}
    (hkey : (key, spelling) ∈ k.spelledSettings)
    (hdefault : Placeholder.occursIn (spelling default) = false) :
    Settled (Verbatim n)
      (.literal (.text (spelling (Config.getText n.config key default).plain))) := by
  refine settled_literal fun s hs hin => ?_
  cases hs
  exact verbatim_spelled hkind hkey hdefault hin

end

/-! ## Bodies -/

/-- An outline leaves no placeholder to the script but in the settings that it has as they are, and
has no expression among the fields of the result. -/
structure OutlineSettled (n : PlannedNode) (o : Outline) : Prop where
  steps : StepsSettled (Verbatim n) o.steps
  fields : (o.fields.all fun f => f.2.fixed?.isSome) = true

/-- The outlines of a kind leave no placeholder to the script. -/
def Kind.Settles (k : Kind) : Prop :=
  ∀ n c o, n.kind? = some k → (k.recipe.outline n c).outcome = .ok o → OutlineSettled n o

namespace Kind

theorem gmailSend_settles : Kind.Settles .gmailSend := by
  intro n c o hkind h
  cases h
  refine ⟨?_, rfl⟩
  simp only [stepsSettled_append, stepsSettled_cons, stepSettled_remark, stepSettled_constant,
    settled_ofText, stepsSettled_nil, stepsSettled_code, stepSettled_deeper, stepSettled_back,
    stepsSettled_optionalFields, and_true, true_and]
  exact stepsSettled_ite (stepsSettled_code _)

theorem gmailRead_settles : Kind.Settles .gmailRead := by
  intro n c o hkind h
  obtain ⟨_, _, h⟩ := Traced.bind_eq_ok.mp h
  obtain ⟨maxResults, _, h⟩ := Traced.bind_eq_ok.mp h
  cases h
  refine ⟨?_, rfl⟩
  have hflag : Settled (Verbatim n) (.literal (.bool (Config.flag n.config "markAsRead"))) :=
    settled_mute (by rintro s ⟨⟩)
  simp [settled_ofText, hflag]

theorem sheetsRead_settles : Kind.Settles .sheetsRead := by
  intro n c o hkind h
  cases h
  refine ⟨?_, ?_⟩
  · simp only [stepsSettled_append, stepsSettled_cons, stepSettled_remark, stepSettled_constant,
      stepsSettled_nil, stepsSettled_code, stepsSettled_openSheet, and_true, true_and]
    refine ⟨⟨?_, ?_, ?_⟩, stepsSettled_ite (stepsSettled_code _)⟩ <;>
      exact settled_keptText hkind (by decide) rfl
  · dsimp only
    split <;> rfl

theorem driveCreate_settles : Kind.Settles .driveCreate := by
  intro n c o hkind h
  cases h
  refine ⟨?_, rfl⟩
  simp only [stepsSettled_append, stepsSettled_cons, stepSettled_remark, stepSettled_constant,
    settled_ofText, stepsSettled_nil, stepsSettled_code, and_true, true_and]
  exact ⟨settled_keptText hkind (by decide) rfl, settled_keptText hkind (by decide) rfl⟩

theorem httpRequest_settles : Kind.Settles .httpRequest := by
  intro n c o hkind h
  obtain ⟨verb, hverb, h⟩ := Traced.bind_eq_ok.mp h
  obtain ⟨_, rfl⟩ := Value.print_eq_ok.mp hverb
  cases h
  refine ⟨?_, rfl⟩
  have hmethod : Settled (Verbatim n)
      (.literal (.text (Text.upper (Config.getText n.config "method" "GET").plain))) :=
    settled_spelled hkind (by simp [Kind.spelledSettings]) (by decide +kernel)
  simp only [stepsSettled_append, stepsSettled_cons, stepSettled_remark, stepSettled_constant,
    settled_ofText, hmethod, stepsSettled_nil, stepsSettled_code, stepSettled_deeper,
    stepSettled_back, and_true, true_and]
  refine ⟨⟨?_, ?_⟩, ?_⟩
  · simp [settled_resolved]
  · split
    · exact stepsSettled_nil
    · simp [settled_resolved]
  · simp [Recipe.callSteps]

theorem slackPost_settles : Kind.Settles .slackPost := by
  intro n c o hkind h
  cases h
  refine ⟨?_, rfl⟩
  have hurl : Settled (Verbatim n) (.literal (.text "https://slack.com/api/chat.postMessage")) :=
    settled_fixed (Placeholder.occursIn_fixed rfl)
  simp [settled_ofText, stepsSettled_optionalFields, Recipe.callSteps, hurl]

theorem condition_settles : Kind.Settles .condition := by
  intro n c o hkind h
  obtain ⟨operator, hprint, h⟩ := Traced.bind_eq_ok.mp h
  obtain ⟨_, rfl⟩ := Value.print_eq_ok.mp hprint
  obtain ⟨expression, _, h⟩ := Traced.bind_eq_ok.mp h
  cases h
  refine ⟨?_, rfl⟩
  have hoperator : Settled (Verbatim n)
      (.literal (.text (id (Config.getText n.config "operator" "==").plain))) :=
    settled_spelled hkind (by simp [Kind.spelledSettings]) (by decide)
  simpa [settled_ofText, settled_contextValue] using hoperator

theorem dataMapper_settles : Kind.Settles .dataMapper := by
  intro n c o hkind h
  simp only [Kind.recipe, Recipe.dataMapper] at h
  split at h
  · rename_i mapping hmapping
    cases h
    refine ⟨?_, rfl⟩
    simp only [stepsSettled_append, stepsSettled_cons, stepSettled_remark, stepsSettled_nil,
      stepsSettled_code, stepSettled_line, stepsSettled_map, and_true, true_and]
    refine ⟨?_, fun entry hentry => ?_⟩
    · split <;> simp [settled_contextValue]
    · have hname : Settled (Verbatim n) (.literal (.text entry.1)) := by
        refine settled_literal fun s hs _ => ?_
        cases hs
        rcases Config.getD_cases n.config "mapping" (.object []) with hv | hv
        · rw [hmapping] at hv
          cases hv
          cases hentry
        · rw [hmapping] at hv
          exact .name hkind hv hentry
      simp [hname, settled_ofValue]
  · cases h

theorem delay_settles : Kind.Settles .delay := by
  intro n c o hkind h
  obtain ⟨milliseconds, _, h⟩ := Traced.bind_eq_ok.mp h
  obtain ⟨seconds, _, h⟩ := Traced.bind_eq_ok.mp h
  obtain ⟨total, _, h⟩ := Traced.bind_eq_ok.mp h
  cases h
  refine ⟨?_, rfl⟩
  simp

theorem logger_settles : Kind.Settles .logger := by
  intro n c o hkind h
  obtain ⟨level, hprint, h⟩ := Traced.bind_eq_ok.mp h
  obtain ⟨_, rfl⟩ := Value.print_eq_ok.mp hprint
  cases h
  refine ⟨?_, rfl⟩
  have hlevel : Settled (Verbatim n)
      (.literal (.text (Text.lower (Config.getText n.config "level" "info").plain))) :=
    settled_spelled hkind (by simp [Kind.spelledSettings]) (by decide +kernel)
  have hid : Settled (Verbatim n)
      (.literal (Config.getText n.config "logSpreadsheetId" "")) :=
    settled_keptText hkind (by decide) rfl
  have hsheet : Settled (Verbatim n) (.literal (Config.getText n.config "logSheetName" "Logs")) :=
    settled_keptText hkind (by decide) rfl
  simp only [stepsSettled_append, stepsSettled_cons, stepSettled_remark, stepSettled_constant,
    settled_ofText, hlevel, stepsSettled_nil, stepsSettled_code, and_true, true_and]
  refine stepsSettled_ite ?_
  simp [Recipe.logSheetParts, hid, hsheet]

end Kind

/-- The result of a node of a known kind is fixed text. -/
theorem stepsSettled_result {A : String → Prop} (k : Kind) (n : PlannedNode)
    {fields : List (String × Part)} (hfields : (fields.all fun f => f.2.fixed?.isSome) = true) :
    StepsSettled A (Recipe.resultSteps (k.recipe.resultOf n) k.recipe.status fields) := by
  have hk : Placeholder.occursIn k.recipe.result = false ∧
      Placeholder.occursIn k.recipe.status = false := by
    cases k <;> exact ⟨Placeholder.occursIn_fixed rfl, Placeholder.occursIn_fixed rfl⟩
  have hresult : k.recipe.resultOf n = k.recipe.result := by cases k <;> rfl
  rw [hresult]
  refine stepsSettled_resultSteps (fun hin => ?_) hk.2 (settled_fields hfields)
  rw [hk.1] at hin
  cases hin

theorem keeps_cellLines : ∀ l ∈ Recipe.rowsOpening :: Recipe.cellLines,
    Lexer.Keeps (fun t => t.isBare = true) l := by
  simp only [Recipe.rowsOpening, Recipe.cellLines, List.forall_mem_cons]
  exact ⟨Written.last.keeps rfl, (Written.text .last).keeps rfl, Written.last.keeps rfl,
    List.forall_mem_nil _⟩

theorem defers_rowSteps {A : String → Prop} (rows : List Value) (snippet : SlotKind → List String) :
    Defers A ((Recipe.rowSteps rows).flatMap (Lexer.stepTokens snippet)) := by
  have hline : lineCode ["const rows = ", Expr.literal (.list rows), Recipe.rowsOpening] =
      "const rows = " ++ Json.literal (.list rows) ++ Recipe.rowsOpening := by
    rw [lineCode_cons, lineCode_cons, lineCode_text, ← String.append_assoc]
    rfl
  have hcells : tokens (Text.joinLines (Recipe.rowsOpening :: Recipe.cellLines)) =
      (Recipe.rowsOpening :: Recipe.cellLines).flatMap lineTokens :=
    tokens_joinLines fun l hl => (keeps_cellLines l hl).complete
  have hbare : (tokens (Text.joinLines (Recipe.rowsOpening :: Recipe.cellLines))).all Token.isBare =
      true := by
    rw [hcells, List.all_eq_true]
    intro t ht
    obtain ⟨l, hl, ht⟩ := List.mem_flatMap.mp ht
    exact (keeps_cellLines l hl).tokens t ht
  have htokens : (Recipe.rowSteps rows).flatMap (Lexer.stepTokens snippet) =
      tokens "const rows = " ++ tokens (Json.literal (.list rows)) ++
        tokens (Text.joinLines (Recipe.rowsOpening :: Recipe.cellLines)) := by
    rw [Recipe.rowSteps, List.singleton_append, List.flatMap_cons, Lexer.stepTokens, hline,
      ← tokens_eq_lineTokens, tokens_between (by decide) (spoken_anyLiteral _) (by decide), hcells]
    simp only [Recipe.cellLines, Recipe.code, List.map_cons, List.map_nil, List.flatMap_cons,
      List.flatMap_nil, Lexer.stepTokens, lineCode_text, List.append_assoc, tokens_eq_lineTokens]
  rw [htokens]
  intro before s after hsplit _
  obtain ⟨inner, inner', hmid, rfl, rfl⟩ :=
    split_between (by decide) hbare (isBare_quoteToken s) hsplit
  exact Or.inl (.rows hmid (List.suffix_refl _) (List.prefix_refl _))

/-- A row step stands for the part of an outline that has no settled expression of its own. -/
theorem steps_sheetsAppend {n : PlannedNode} {c : Choices} {o : Outline}
    (hkind : n.kind? = some .sheetsAppend)
    (h : (Recipe.sheetsAppend.outline n c).outcome = .ok o) :
    ∃ rows first last, o.steps = first ++ Recipe.rowSteps rows ++ last ∧
      StepsSettled (Verbatim n) first ∧ StepsSettled (Verbatim n) last ∧
      (o.fields.all fun f => f.2.fixed?.isSome) = true := by
  simp only [Recipe.sheetsAppend] at h
  split at h
  · rename_i items _
    cases h
    have hid : Settled (Verbatim n) (.literal (Config.getText n.config "spreadsheetId" "")) :=
      settled_keptText hkind (by decide) rfl
    have hname : Settled (Verbatim n) (.literal (Config.getText n.config "sheetName" "Sheet1")) :=
      settled_keptText hkind (by decide) rfl
    refine ⟨_, _, _, (List.append_assoc ..).trans (List.append_assoc ..), by simp [hid, hname], ?_,
      rfl⟩
    exact stepsSettled_append.mpr ⟨stepsSettled_ite (stepsSettled_code _),
      stepsSettled_append.mpr ⟨stepsSettled_openSheet, stepsSettled_code _⟩⟩
  · cases h

/-- The kinds whose outlines are settled. -/
theorem Kind.settles {k : Kind} (htrigger : k.isTrigger = false) (hrows : k ≠ .sheetsAppend) :
    k.Settles := by
  cases k with
  | timeTrigger => cases htrigger
  | webhookTrigger => cases htrigger
  | gmailTrigger => cases htrigger
  | sheetsTrigger => cases htrigger
  | gmailSend => exact gmailSend_settles
  | gmailRead => exact gmailRead_settles
  | sheetsAppend => exact absurd rfl hrows
  | sheetsRead => exact sheetsRead_settles
  | driveCreate => exact driveCreate_settles
  | httpRequest => exact httpRequest_settles
  | slackPost => exact slackPost_settles
  | condition => exact condition_settles
  | dataMapper => exact dataMapper_settles
  | delay => exact delay_settles
  | logger => exact logger_settles

/-- A node of no known kind names its tag. -/
theorem stepsSettled_unknown {n : PlannedNode} {c : Choices} {body : List Step}
    (hkind : n.kind? = none) (h : (Recipe.unknown.body n c).outcome = .ok body) :
    StepsSettled (Verbatim n) body := by
  obtain ⟨o, ho, rfl, -⟩ := Recipe.body_eq_ok.mp h
  cases ho
  refine stepsSettled_append.mpr ⟨?_, stepsSettled_resultSteps (fun _ => .tag hkind rfl)
    (Placeholder.occursIn_fixed rfl) (settled_fields rfl)⟩
  have htag : Settled (Verbatim n) (.literal (.text n.tag)) := by
    refine settled_literal fun s hs _ => ?_
    cases hs
    exact .tag hkind rfl
  simp [htag]

/-- In the body of a node that is no trigger every placeholder is deferred, but in what the body has as
it is. -/
theorem defers_body {n : PlannedNode} {c : Choices} {body : List Step}
    {snippet : SlotKind → List String} (hkind : ∀ k, n.kind? = some k → k.isTrigger = false)
    (hbody : (n.recipe.body n c).outcome = .ok body)
    (hslot : ∀ kind, .slot kind ∈ body → ∀ l ∈ snippet kind, Defers (Verbatim n) (lineTokens l)) :
    Defers (Verbatim n) (body.flatMap (Lexer.stepTokens snippet)) := by
  have hpart : ∀ {steps : List Step}, steps ⊆ body → StepsSettled (Verbatim n) steps →
      Defers (Verbatim n) (steps.flatMap (Lexer.stepTokens snippet)) := fun hsub h =>
    defers_steps hbody hsub h fun kind hmem => hslot kind (hsub hmem)
  cases hk : n.kind? with
  | none =>
    rw [PlannedNode.recipe_of_none hk] at hbody
    exact hpart (List.Subset.refl _) (stepsSettled_unknown hk hbody)
  | some k =>
    have hsteps := hbody
    rw [PlannedNode.recipe_of_kind hk] at hsteps
    obtain ⟨o, houtline, rfl, -⟩ := Recipe.body_eq_ok.mp hsteps
    by_cases hrows : k = .sheetsAppend
    · subst hrows
      obtain ⟨rows, first, last, hsteps, hfirst, hlast, hfields⟩ := steps_sheetsAppend hk houtline
      have hend := stepsSettled_append.mpr ⟨hlast, stepsSettled_result .sheetsAppend n hfields⟩
      rw [hsteps, List.append_assoc] at hpart ⊢
      rw [List.flatMap_append, List.flatMap_append]
      exact joined_defers.append (joined_defers.append (hpart (by simp) hfirst)
        (defers_rowSteps rows snippet)) (hpart (by simp) hend)
    · have ho := Kind.settles (hkind k hk) hrows n c o hk houtline
      exact hpart (List.Subset.refl _)
        (stepsSettled_append.mpr ⟨ho.steps, stepsSettled_result k n ho.fields⟩)

/-! ## Constants -/

/-- The settings that a body of the kind binds to constants of their names, with how they are spelled
there. -/
def Kind.constants : Kind → List (String × (String → String))
  | .sheetsAppend => [("spreadsheetId", id), ("sheetName", id)]
  | .sheetsRead => [("spreadsheetId", id), ("sheetName", id), ("range", id)]
  | .driveCreate => [("mimeType", id), ("folderId", id)]
  | .httpRequest => [("method", Text.upper)]
  | .condition => [("operator", id)]
  | .logger => [("level", Text.lower)]
  | _ => []

theorem constant_mem_steps {n : PlannedNode} {c : Choices} {k : Kind} {o : Outline}
    (h : (k.recipe.outline n c).outcome = .ok o) {key s : String} {spelling : String → String}
    (hkey : (key, spelling) ∈ k.constants) (hs : Config.get? n.config key = some (.text s)) :
    Recipe.constant key (.literal (.text (spelling s))) ∈ o.steps := by
  have hget : ∀ default, Config.getText n.config key default = .text s := by
    simp [Config.getText, Config.getD, hs]
  cases k with
  | sheetsAppend =>
    simp only [Kind.recipe, Recipe.sheetsAppend] at h
    split at h
    · cases h
      simp only [Kind.constants, List.mem_cons, Prod.mk.injEq, List.not_mem_nil, or_false] at hkey
      rcases hkey with ⟨rfl, rfl⟩ | ⟨rfl, rfl⟩ <;> simp [hget]
    · cases h
  | sheetsRead =>
    cases h
    simp only [Kind.constants, List.mem_cons, Prod.mk.injEq, List.not_mem_nil, or_false] at hkey
    rcases hkey with ⟨rfl, rfl⟩ | ⟨rfl, rfl⟩ | ⟨rfl, rfl⟩ <;> simp [hget]
  | driveCreate =>
    cases h
    simp only [Kind.constants, List.mem_cons, Prod.mk.injEq, List.not_mem_nil, or_false] at hkey
    rcases hkey with ⟨rfl, rfl⟩ | ⟨rfl, rfl⟩ <;> simp [hget]
  | httpRequest =>
    obtain ⟨verb, hverb, h⟩ := Traced.bind_eq_ok.mp h
    obtain ⟨_, rfl⟩ := Value.print_eq_ok.mp hverb
    cases h
    cases List.mem_singleton.mp hkey
    simp [hget, Value.plain]
  | condition =>
    obtain ⟨operator, hoperator, h⟩ := Traced.bind_eq_ok.mp h
    obtain ⟨_, rfl⟩ := Value.print_eq_ok.mp hoperator
    obtain ⟨expression, _, h⟩ := Traced.bind_eq_ok.mp h
    cases h
    cases List.mem_singleton.mp hkey
    simp [hget, Value.plain]
  | logger =>
    obtain ⟨level, hlevel, h⟩ := Traced.bind_eq_ok.mp h
    obtain ⟨_, rfl⟩ := Value.print_eq_ok.mp hlevel
    cases h
    cases List.mem_singleton.mp hkey
    simp [hget, Value.plain]
  | _ => cases hkey

theorem scans_constant {name : String} (hword : name.toList.all Lexer.isWord = true)
    (hne : name.toList.isEmpty = false) :
    Scans .start ("const " ++ name ++ " = ").toList
      [.word "const".toList, .word name.toList, .sign '='] .start := by
  have hopen : Scans .start "const ".toList [.word "const".toList] .start := rfl
  have hclose : Scans .start [' ', '=', ' '] [.sign '='] .start := rfl
  have hname := hclose.apart rfl name.toList
  rw [heldWord, hne] at hname
  have hall := hopen.append ((@Lexer.scans_word [] _ (List.all_eq_true.mp hword)).append hname)
  simpa using hall

/-- What stands in front of the value of a constant. -/
def constantStart (name : String) : List Token :=
  [.word "const".toList, .word name.toList, .sign '=']

theorem stepTokens_constant {k : Kind} {key : String} {spelling : String → String}
    (h : (key, spelling) ∈ k.constants) (s : String) (snippet : SlotKind → List String) :
    Lexer.stepTokens snippet (Recipe.constant key (.literal (.text s))) =
      constantStart key ++ quoteToken s :: [.sign ';'] := by
  have hwords : (k.constants.all fun p => p.1.toList.all Lexer.isWord && !p.1.toList.isEmpty) =
      true := by cases k <;> decide
  have hkey := List.all_eq_true.mp hwords _ h
  rw [Bool.and_eq_true, Bool.not_eq_true'] at hkey
  have hscan := scans_constant hkey.1 hkey.2
  have hline : lineCode ["const ", key, " = ", Expr.literal (.text s), ";"] =
      "const " ++ key ++ " = " ++ Json.quote s ++ ";" := by
    rw [lineCode_cons, lineCode_cons, lineCode_cons, lineCode_cons, lineCode_text,
      ← String.append_assoc, ← String.append_assoc, ← String.append_assoc]
    rfl
  rw [Recipe.constant, Lexer.stepTokens, hline, ← tokens_eq_lineTokens,
    tokens_between (p := fun _ => true) (congrArg Prod.fst hscan) (Lexer.spoken_quote s)
      (by decide),
    tokens_of_scans hscan, tokens_quote]
  rfl

/-- The words of a literal have no letter `c`. -/
theorem const_notMem_literal (v : Value) : .word "const".toList ∉ tokens (Json.literal v) := by
  have hletters : Lexer.Letters (· != 'c') := by
    refine ⟨⟨fun c hc => ?_, rfl⟩, rfl⟩
    rw [bne_iff_ne]
    rintro rfl
    cases hc
  obtain ⟨ts, held, hscan, hheld, hts⟩ := Lexer.spoken_literal hletters v [] rfl
  have hnot : ¬ (Token.word "const".toList).VoicedIn (· != 'c') fun _ => True := by
    rw [Token.VoicedIn]
    decide
  rw [tokens_of_scans hscan, List.mem_append, not_or]
  exact ⟨fun hmem => hnot (hts _ hmem), fun hmem => hnot (Lexer.voicedIn_heldWord hheld _ hmem)⟩

/-- The value of a constant is not deferred: no code that resolves it stands between it and the name of
the constant. -/
theorem not_deferred_constant {name : String} (hname : name.toList ≠ "rows".toList) {q : Token}
    {before after : List Token} (h : constantStart name <:+ before) : ¬ Deferred q before after := by
  have hnot : ∀ {t : Token} {ts : List Token}, t ∉ constantStart name →
      .word "const".toList ∉ t :: ts → ¬ t :: ts <:+ before := by
    intro t ts ht hconst hsuffix
    rcases List.suffix_or_suffix_of_suffix hsuffix h with hin | hin
    · exact ht (hin.subset (List.mem_cons_self ..))
    · exact hconst (hin.subset (List.mem_cons_self ..))
  have hinner : ∀ {v : Value} {inner inner' : List Token},
      tokens (Json.literal v) = inner ++ q :: inner' → .word "const".toList ∉ inner :=
    fun hv hmem => const_notMem_literal _ (hv ▸ List.mem_append_left _ hmem)
  intro hdeferred
  cases hdeferred with
  | template hb ha =>
    have htokens : tokens "resolveTemplate(" = [.word "resolveTemplate".toList, .sign '('] := by decide
    rw [htokens] at hb
    exact hnot (by simp [constantStart]) (by simp) ((List.suffix_cons ..).trans hb)
  | contextValue hb ha =>
    have htokens : tokens "getContextValue(context, " =
        [.word "getContextValue".toList, .sign '(', .word "context".toList] ++ [.sign ','] := by decide
    rw [htokens] at hb
    exact hnot (by simp [constantStart]) (by simp) ((List.suffix_append ..).trans hb)
  | object hv hb ha =>
    have htokens : tokens "resolveObject(" = [.word "resolveObject".toList, .sign '('] := by decide
    rw [htokens] at hb
    exact hnot (by simp [constantStart]) (by simpa using hinner hv) ((List.suffix_cons ..).trans hb)
  | rows hv hb ha =>
    have htokens : tokens "const rows = " = constantStart "rows" := by decide
    rw [htokens] at hb
    exact hnot (by simpa [constantStart] using fun h => hname h.symm) (by simpa using hinner hv)
      ((List.suffix_cons ..).trans hb)

end Flowscript
