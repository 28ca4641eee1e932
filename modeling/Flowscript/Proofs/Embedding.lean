-- Placeholders in the function of a node. The snippets that fill the slots of
-- a body have the settings of a connector as they are and no other text of
-- the configuration, so the function defers every other text with a
-- placeholder. The main statement says so of all strings in the function, and
-- that no code resolves the settings that a body binds to constants.
import Flowscript.Proofs.Markers
import Flowscript.Proofs.Verbatim

namespace Flowscript

open Lexer (Token tokens lineTokens Mentions Heard Written Scans heldWord)

/-! ## Facts -/

theorem isPlainLetter_of_mem_plainRuns {cs run : List Char} {c : Char} (hrun : run ∈ plainRuns cs)
    (hc : c ∈ run) : isPlainLetter c = true := by
  induction cs generalizing run c with
  | nil => cases hrun
  | cons d rest ih =>
    unfold plainRuns at hrun
    split at hrun
    · exact ih hrun hc
    · rename_i hd
      rw [Bool.not_eq_true', Bool.not_eq_false] at hd
      split at hrun
      · rw [List.mem_singleton.mp hrun, List.mem_singleton] at hc
        rw [hc, hd]
      · split at hrun
        · rcases mem_of_mem_consHead hrun hc with rfl | ⟨p, hp, hcp⟩
          · exact hd
          · exact ih hp hcp
        · rcases List.mem_cons.mp hrun with rfl | hrun
          · rw [List.mem_singleton.mp hc, hd]
          · exact ih hrun hc

/-- Whether a character is a capital or a digit. -/
def isCapital (c : Char) : Bool := c.isUpper || c.isDigit

theorem isUpper_iff {c : Char} : c.isUpper = true ↔ 65 ≤ c.toNat ∧ c.toNat ≤ 90 := by
  show decide ('A'.val ≤ c.val ∧ c.val ≤ 'Z'.val) = true ↔ _
  simp [UInt32.le_iff_toNat_le]

theorem isLower_iff {c : Char} : c.isLower = true ↔ 97 ≤ c.toNat ∧ c.toNat ≤ 122 := by
  show (decide ('a'.val ≤ c.val) && decide (c.val ≤ 'z'.val)) = true ↔ _
  simp [UInt32.le_iff_toNat_le]

theorem isCapital_iff {c : Char} : isCapital c = true ↔
    (65 ≤ c.toNat ∧ c.toNat ≤ 90) ∨ (48 ≤ c.toNat ∧ c.toNat ≤ 57) := by
  simp [isCapital, isUpper_iff, Char.isDigit, UInt32.le_iff_toNat_le]

theorem isPlainLetter_iff {c : Char} : isPlainLetter c = true ↔
    isCapital c = true ∨ (97 ≤ c.toNat ∧ c.toNat ≤ 122) := by
  show (c.isUpper || c.isLower || c.isDigit) = true ↔ _
  simp only [isCapital, Bool.or_eq_true, ← isLower_iff]
  exact or_right_comm

theorem toNat_toUpper (c : Char) :
    c.toUpper.toNat = if 97 ≤ c.toNat ∧ c.toNat ≤ 122 then c.toNat - 32 else c.toNat := by
  unfold Char.toUpper
  simp only [UInt32.le_iff_toNat_le, UInt32.reduceToNat, Char.reduceVal, Char.toNat_val]
  split
  · have hshift : ((65 : UInt32) - 97).toNat = 4294967264 := by decide
    rw [Char.toNat, UInt32.toNat_add, Char.toNat_val, hshift]
    omega
  · rfl

theorem isCapital_toUpper {c : Char} (h : isPlainLetter c = true) : isCapital c.toUpper = true := by
  rw [isPlainLetter_iff, isCapital_iff] at h
  rw [isCapital_iff, toNat_toUpper]
  split <;> omega

/-- No letter or digit has a brace for its capital. -/
theorem toUpper_ne_brace {c : Char} (h : isPlainLetter c = true) : c.toUpper ≠ '\x7b' := by
  intro he
  have hcapital := isCapital_toUpper h
  rw [he] at hcapital
  cases hcapital

theorem notMem_propertyStem (slug : String) : '\x7b' ∉ (propertyStem slug).toList := by
  unfold propertyStem
  dsimp only
  split
  · decide
  · intro hmem
    rcases mem_joinWith hmem with hsep | ⟨x, hx, hc⟩
    · revert hsep
      decide
    · obtain ⟨run, hrun, rfl⟩ := List.mem_map.mp hx
      rw [String.toList_ofList] at hc
      obtain ⟨c, hcrun, hc⟩ := List.mem_map.mp hc
      exact toUpper_ne_brace (isPlainLetter_of_mem_plainRuns hrun hcrun) hc

section

variable {A : String → Prop} {f : Facts}

theorem settled_propertyOr {named v : Value} {ending : String} (hnamed : Settled A (.literal named))
    (hending : '\x7b' ∉ ending.toList) (h : f.propertyOr named ending = .ok v) :
    Settled A (.literal v) := by
  unfold Facts.propertyOr at h
  split at h
  · cases h
    exact hnamed
  · obtain ⟨stem, hstem, h⟩ := except_bind_eq_ok.mp h
    cases h
    unfold Facts.stem at hstem
    split at hstem
    · cases hstem
      refine settled_fixed (Placeholder.occursIn_eq_false_of_notMem ?_)
      rw [String.toList_append, List.mem_append, not_or]
      exact ⟨notMem_propertyStem _, hending⟩
    · cases hstem

/-- The facts leave no placeholder to the script, but for texts that are allowed. -/
structure FactsSettled (A : String → Prop) (f : Facts) : Prop where
  slug : Settled A (.literal f.slug)
  errorStart : Settled A (.literal (.text (errorStart f.connectorName)))
  apiKeyHeader : Settled A (.literal f.apiKeyHeader)
  tokenProperty : Settled A (.literal f.tokenProperty)
  apiKeyProperty : Settled A (.literal f.apiKeyProperty)
  usernameProperty : Settled A (.literal f.usernameProperty)
  passwordProperty : Settled A (.literal f.passwordProperty)
  accessTokenProperty : Settled A (.literal f.accessTokenProperty)
  dedupKey : f.dedupKey = .text "items"

theorem FactsSettled.propertiesOf (hf : FactsSettled A f) {scheme : Scheme} {names : List Value}
    (h : f.propertiesOf scheme = .ok names) : ∀ v ∈ names, Settled A (.literal v) := by
  cases scheme with
  | apiKey =>
    obtain ⟨key, hkey, h⟩ := except_bind_eq_ok.mp h
    cases h
    exact List.forall_mem_singleton.mpr (settled_propertyOr hf.apiKeyProperty (by decide) hkey)
  | bearer =>
    obtain ⟨token, htoken, h⟩ := except_bind_eq_ok.mp h
    cases h
    exact List.forall_mem_singleton.mpr (settled_propertyOr hf.tokenProperty (by decide) htoken)
  | basic =>
    obtain ⟨username, husername, h⟩ := except_bind_eq_ok.mp h
    obtain ⟨password, hpassword, h⟩ := except_bind_eq_ok.mp h
    cases h
    exact List.forall_mem_cons.mpr ⟨settled_propertyOr hf.usernameProperty (by decide) husername,
      List.forall_mem_singleton.mpr (settled_propertyOr hf.passwordProperty (by decide) hpassword)⟩
  | oauth2 =>
    obtain ⟨token, htoken, h⟩ := except_bind_eq_ok.mp h
    cases h
    refine List.forall_mem_singleton.mpr (settled_propertyOr ?_ (by decide) htoken)
    unfold Value.orElse
    split
    · exact hf.accessTokenProperty
    · exact hf.tokenProperty

end

section

variable {n : PlannedNode} {c : Choices} {f : Facts}

theorem occursIn_errorStart {cs : List Char} (h : cs.contains '\x7b' = false) :
    Placeholder.occursIn (errorStart (String.ofList cs)) = false := by
  refine Placeholder.occursIn_eq_false_of_notMem ?_
  rw [errorStart, String.toList_append, String.toList_ofList, List.mem_append, not_or]
  exact ⟨by simpa using h, by decide⟩

/-- A connector without a name of its own goes by its slug. -/
theorem settled_connectorName {k : Kind} {s : Recipe.Service} (hkind : n.kind? = some k)
    (hspelled : connectorSettings ⊆ k.spelledSettings)
    (herror : Placeholder.occursIn (errorStart s.slug) = false)
    (hname : Placeholder.occursIn (errorStart s.name) = false) :
    let slug := (Config.getText n.config "connector" s.slug).plain
    Settled (Verbatim n) (.literal (.text (errorStart (Config.getText n.config "connectorName"
      (if slug = s.slug then s.name else slug)).plain))) := by
  intro slug
  refine settled_literal fun t ht hin => ?_
  cases ht
  rcases Config.getD_cases n.config "connectorName"
    (.text (if slug = s.slug then s.name else slug)) with hv | hv
  · rw [Config.getText, hv, Value.plain] at hin ⊢
    split at hin
    · rw [hname] at hin
      cases hin
    · rename_i hother
      rw [if_neg hother]
      exact verbatim_spelled hkind (hspelled (by simp [connectorSettings])) herror hin
  · exact .spelled hkind (hspelled (by simp [connectorSettings])) hv rfl

theorem factsSettled_service {k : Kind} {s : Recipe.Service} (hkind : n.kind? = some k)
    (hkept : k.keptSettings = overrideKeys) (hspelled : connectorSettings ⊆ k.spelledSettings)
    (hslug : Placeholder.occursIn s.slug = false)
    (herror : Placeholder.occursIn (errorStart s.slug) = false)
    (hname : Placeholder.occursIn (errorStart s.name) = false)
    (h : Recipe.serviceFacts s n c = .ok f) : FactsSettled (Verbatim n) f := by
  obtain ⟨requests, window, rfl⟩ := Recipe.serviceFacts_eq_ok h
  have hown : ∀ key ∈ overrideKeys,
      Settled (Verbatim n) (.literal (Config.getD n.config key .null)) := fun key hkey =>
    settled_kept hkind (hkept ▸ hkey) (settled_mute (by rintro s ⟨⟩))
  have hconnector : Settled (Verbatim n)
      (.literal (.text (id (Config.getText n.config "connector" s.slug).plain))) :=
    settled_spelled hkind (hspelled (by simp [connectorSettings])) hslug
  have hheader : Settled (Verbatim n)
      (.literal (.text (id (Config.getText n.config "apiKeyHeader" "X-API-Key").plain))) :=
    settled_spelled hkind (hspelled (by simp [connectorSettings])) (Placeholder.occursIn_fixed rfl)
  exact ⟨hconnector, settled_connectorName hkind hspelled herror hname, hheader,
    hown _ (by decide), hown _ (by decide), hown _ (by decide), hown _ (by decide),
    hown _ (by decide), rfl⟩

/-- The facts of a node that is no trigger name nothing but settings of a connector. -/
theorem factsSettled_of_facts (hkind : ∀ k, n.kind? = some k → k.isTrigger = false)
    (h : n.recipe.facts n c = .ok f) : FactsSettled (Verbatim n) f := by
  have hdefault : ∀ {f : Facts}, Except.ok { rateLimiting := c.includeRateLimiting } =
      (Except.ok f : Except Fault Facts) → FactsSettled (Verbatim n) f := by
    intro f h
    cases h
    have hnull : Settled (Verbatim n) (.literal .null) := settled_mute (by rintro s ⟨⟩)
    exact ⟨settled_fixed (Placeholder.occursIn_fixed rfl), settled_fixed (occursIn_errorStart rfl),
      settled_fixed (Placeholder.occursIn_fixed rfl), hnull, hnull, hnull, hnull, hnull, rfl⟩
  cases hk : n.kind? with
  | none =>
    rw [PlannedNode.recipe_of_none hk] at h
    exact hdefault h
  | some k =>
    rw [PlannedNode.recipe_of_kind hk] at h
    cases k with
    | timeTrigger => cases hkind _ hk
    | webhookTrigger => cases hkind _ hk
    | gmailTrigger => cases hkind _ hk
    | sheetsTrigger => cases hkind _ hk
    | httpRequest =>
      exact factsSettled_service (s := Recipe.anyService) hk rfl (List.subset_cons_self ..)
        (Placeholder.occursIn_fixed rfl) (occursIn_errorStart rfl) (occursIn_errorStart rfl) h
    | slackPost =>
      exact factsSettled_service (s := Recipe.slack) hk rfl (List.Subset.refl _)
        (Placeholder.occursIn_fixed rfl) (occursIn_errorStart rfl) (occursIn_errorStart rfl) h
    | _ => exact hdefault h

end

/-! ## Snippets -/

section

variable {A : String → Prop} {f : Facts}

theorem heard_quote {s : String} (h : Settled A (.literal (.text s))) :
    Heard (Defers A) (Json.quote s) :=
  heard_of_voiced (p := fun _ => true) (Lexer.spoken_quote s) h

theorem heard_literal {v : Value} (h : Settled A (.literal v)) :
    Heard (Defers A) (Json.literal v) :=
  heard_of_voiced (spoken_anyLiteral v) h

theorem heard_readProperty {v : Value} (h : Settled A (.literal v)) :
    Heard (Defers A) (Snippet.readProperty v) := by
  obtain ⟨ts, held, hscan, hts⟩ := heard_literal h
  have hclose : Scans ⟨.code, held⟩ ")".toList (heldWord held ++ [.sign ')']) .start := by
    rw [show ")".toList = [')'] from rfl]
    exact Scans.apart rfl rfl held
  have hopen : Defers A (Lexer.storeTokens ++ [.word Lexer.getProperty, .sign '(']) :=
    defers_of_isBare rfl
  refine ⟨_, [], (Lexer.scans_reader.joined hscan).joined hclose, ?_⟩
  rw [List.append_assoc _ ts, ← List.append_assoc ts]
  exact joined_defers.append (joined_defers.append hopen (joined_defers.append hts
    (defers_of_isBare rfl))) (defers_of_isBare rfl)

theorem heard_headD {reads : List String} (h : ∀ x ∈ reads, Heard (Defers A) x) :
    Heard (Defers A) (reads.headD "") := by
  cases reads with
  | nil => exact ⟨[], [], rfl, joined_defers.nil⟩
  | cons x rest => exact h x (by simp)

theorem scripted_schemeLines (husual : Lexer.Usual f) (hf : FactsSettled A f) {reads : List String}
    (h : ∀ x ∈ reads, Heard (Defers A) x) (scheme : Scheme) :
    Lexer.Scripted Lexer.watched (Defers A) (Snippet.schemeLines f reads scheme) := by
  have hfirst := heard_headD h
  have hsecond := heard_headD fun x hx => h x (List.mem_of_mem_drop (i := 1) hx)
  have hheader := heard_literal hf.apiKeyHeader
  cases scheme
  all_goals
    simp only [Snippet.schemeLines, Snippet.headersLine, husual.optionsVar, String.append_assoc]
    exact ⟨_, by
      repeat' first
        | with_reducible apply Written.gap hheader
        | with_reducible apply Written.gap hfirst
        | with_reducible apply Written.gap hsecond
        | with_reducible apply Written.text
        | constructor, by decide +kernel⟩

theorem defers_authLines (husual : Lexer.Usual f) (hf : FactsSettled A f) {lines : List String}
    (h : (Snippet.authLines f).outcome = .ok lines) : ∀ l ∈ lines, Defers A (lineTokens l) := by
  rcases Snippet.authLines_eq_ok h with ⟨_, rfl⟩ | ⟨scheme, names, _, hnames, rfl⟩
  · exact List.forall_mem_nil _
  · refine defers_of_scripted
      (scripted_schemeLines husual hf (List.forall_mem_map.mpr fun v hv => ?_) _)
    exact heard_readProperty (hf.propertiesOf hnames v hv)

theorem defers_dedupLines (husual : Lexer.Usual f) (hf : FactsSettled A f) {lines : List String}
    (h : Snippet.dedupLines f = .ok lines) : ∀ l ∈ lines, Defers A (lineTokens l) := by
  obtain ⟨remark, rest, hours, stem, rfl, hremark, hinert, _, hstem, hrest⟩ :=
    Lexer.scripted_dedupLines husual h
  rw [Facts.itemStem, hf.dedupKey] at hstem
  cases hstem
  refine List.forall_mem_cons.mpr ⟨?_, defers_of_scripted
    (hrest (heard_of_inert hinert) (heard_quote (settled_fixed (by decide))))⟩
  exact defers_of_isBare (List.all_eq_true.mpr (hremark fun t => t.isBare = true).tokens)

/-- A snippet leaves no placeholder to the script, but for what its facts allow. -/
theorem defers_snippet (husual : Lexer.Usual f) (hf : FactsSettled A f) {kind : SlotKind}
    {lines : List String} (h : (Snippet.lines kind f).outcome = .ok lines) :
    ∀ l ∈ lines, Defers A (lineTokens l) := by
  cases kind with
  | auth => exact defers_authLines husual hf (Snippet.authLines_of_lines h)
  | error =>
    cases h
    exact defers_of_scripted (Lexer.scripted_errorLines husual (heard_quote hf.errorStart))
  | rateLimit =>
    exact defers_of_scripted (Lexer.scripted_rateLimitLines (heard_literal hf.slug)
      (fun k => heard_of_inert (inert_int k)) (except_mapError_eq_ok.mp h))
  | dedup => exact defers_dedupLines husual hf h

end

/-! ## The law -/

/-- The tokens of a step of the body stand together in the text of the function. -/
theorem stepTokens_inText {n : PlannedNode} {c : Choices} {text : String} {body : List Step}
    (hn : Scheduled n) (htext : (NodeFunction.text n c).outcome = .ok text)
    (hbody : (n.recipe.body n c).outcome = .ok body) :
    ∃ snippet, ∀ st ∈ body, Lexer.stepTokens snippet st <:+: tokens text := by
  obtain ⟨body', facts, hbody', _, _, htokens⟩ := Lexer.tokens_text hn.isFunctionName htext
  cases hbody.symm.trans hbody'
  refine ⟨Snippet.linesOr facts, fun st hst => ?_⟩
  have hinner : Lexer.stepTokens (Snippet.linesOr facts) st <:+:
      body.flatMap (Lexer.stepTokens (Snippet.linesOr facts)) := by
    rw [List.flatMap_def]
    exact List.infix_of_mem_flatten (List.mem_map_of_mem hst)
  rw [htokens]
  exact hinner.trans (List.infix_append ..)

/-- A setting that is bound to a constant is used as it is. -/
theorem exists_not_deferred {n : PlannedNode} {c : Choices} {text : String} {k : Kind}
    (hn : Scheduled n) (htext : (NodeFunction.text n c).outcome = .ok text)
    (hkind : n.kind? = some k) {key s : String} {spelling : String → String}
    (hkey : (key, spelling) ∈ k.constants) (hs : Config.get? n.config key = some (.text s)) :
    ∃ before after, tokens text = before ++ quoteToken (spelling s) :: after ∧
      ¬ Deferred (quoteToken (spelling s)) before after := by
  obtain ⟨body, _, hbody, _⟩ := Lexer.tokens_text hn.isFunctionName htext
  obtain ⟨snippet, hsteps⟩ := stepTokens_inText hn htext hbody
  rw [PlannedNode.recipe_of_kind hkind] at hbody
  obtain ⟨o, houtline, rfl, -⟩ := Recipe.body_eq_ok.mp hbody
  obtain ⟨first, last, htokens⟩ :=
    hsteps _ (List.mem_append_left _ (constant_mem_steps houtline hkey hs))
  rw [stepTokens_constant hkey] at htokens
  have hrows : (k.constants.all fun p => p.1.toList != "rows".toList) = true := by
    cases k <;> decide
  refine ⟨first ++ constantStart key, .sign ';' :: last, by simp [← htokens],
    not_deferred_constant ?_ (List.suffix_append ..)⟩
  simpa using List.all_eq_true.mp hrows _ hkey

/-- What is only known when the script runs is looked up then. In the function of a node that is no
trigger, a string with a placeholder is resolved by the code around it, unless it is one of the texts
that the function has as they are. A setting that is bound to a constant is such a text, and no code
resolves it. -/
theorem placeholders_wait_for_the_run (n : PlannedNode) (c : Choices) (text : String)
    (hn : Scheduled n) (hkind : ∀ k, n.kind? = some k → k.isTrigger = false)
    (htext : (NodeFunction.text n c).outcome = .ok text) :
    (∀ before s after, tokens text = before ++ quoteToken s :: after →
      Placeholder.occursIn s = true → Deferred (quoteToken s) before after ∨ Verbatim n s) ∧
    ∀ k key spelling s, n.kind? = some k → (key, spelling) ∈ k.constants →
      Config.get? n.config key = some (.text s) →
      ∃ before after, tokens text = before ++ quoteToken (spelling s) :: after ∧
        ¬ Deferred (quoteToken (spelling s)) before after := by
  refine ⟨?_, fun k key spelling s hk hkey hs => exists_not_deferred hn htext hk hkey hs⟩
  obtain ⟨body, facts, hbody, hfacts, hready, htokens⟩ :=
    Lexer.tokens_text hn.isFunctionName htext
  have hopen : Defers (Verbatim n) (lineTokens (Lexer.declaration n)) := by
    rw [(Lexer.scans_line.mp (Lexer.scans_declaration hn.isFunctionName)).2]
    exact defers_of_isBare rfl
  have hslots : ∀ kind, .slot kind ∈ body →
      ∀ l ∈ Snippet.linesOr facts kind, Defers (Verbatim n) (lineTokens l) := fun kind hslot =>
    defers_snippet (Lexer.usual_of_facts hfacts) (factsSettled_of_facts hkind hfacts)
      (hready kind hslot)
  rw [htokens]
  exact joined_defers.append (joined_defers.append hopen (defers_body hkind hbody hslots))
    (defers_of_isBare rfl)

/-- A file whose name and folder are only known when the script runs. -/
def filedReport : Node := ⟨"report", "action.drive.create_file",
  [("fileName", .text "\x7b\x7btriggerData.name\x7d\x7d"),
    ("folderId", .text "\x7b\x7btriggerData.folder\x7d\x7d")]⟩

theorem kind?_filedReport : (PlannedNode.ofNode filedReport "").kind? = some .driveCreate := by
  decide +kernel

theorem the_name_of_a_report_waits_for_the_run : ∃ text before after,
    (NodeFunction.text (.ofNode filedReport "") ⟨none, true, true, true, "UTC", "1"⟩).outcome =
      .ok text ∧
    tokens text = before ++ quoteToken "\x7b\x7btriggerData.name\x7d\x7d" :: after ∧
    Placeholder.occursIn "\x7b\x7btriggerData.name\x7d\x7d" = true ∧
    Deferred (quoteToken "\x7b\x7btriggerData.name\x7d\x7d") before after := by
  have hrun : ∃ text body,
      (NodeFunction.text (.ofNode filedReport "") ⟨none, true, true, true, "UTC", "1"⟩).outcome =
        .ok text ∧
      ((PlannedNode.ofNode filedReport "").recipe.body (.ofNode filedReport "")
        ⟨none, true, true, true, "UTC", "1"⟩).outcome = .ok body ∧
      Recipe.constant "fileName" (.ofText (.text "\x7b\x7btriggerData.name\x7d\x7d")) ∈ body :=
    ⟨_, _, rfl, rfl, .tail _ (.head _)⟩
  obtain ⟨text, body, htext, hbody, hmem⟩ := hrun
  have hplace : Placeholder.occursIn "\x7b\x7btriggerData.name\x7d\x7d" = true := by decide +kernel
  obtain ⟨snippet, hsteps⟩ := stepTokens_inText (.alone filedReport) htext hbody
  have htoken : quoteToken "\x7b\x7btriggerData.name\x7d\x7d" ∈ tokens text := by
    refine (hsteps _ hmem).subset ?_
    have hline : quoteToken "\x7b\x7btriggerData.name\x7d\x7d" ∈ lineTokens (lineCode ["const ",
        "fileName", " = ", Expr.ofText (.text "\x7b\x7btriggerData.name\x7d\x7d"), ";"]) := by
      decide +kernel
    exact hline
  obtain ⟨before, after, hsplit⟩ := List.append_of_mem htoken
  refine ⟨text, before, after, htext, hsplit, hplace, ?_⟩
  have hlaw := (placeholders_wait_for_the_run _ _ text (.alone filedReport) (fun k hk => ?_) htext).1
  · refine (hlaw _ _ _ hsplit hplace).resolve_right fun hverbatim => ?_
    have hmention : ∀ {s t : String}, Mentions (.text t) s → s = t := by
      rintro s t ⟨⟩
      rfl
    cases hverbatim with
    | kept hk hkey hv hs =>
      cases kind?_filedReport.symm.trans hk
      rcases List.mem_pair.mp hkey with rfl | rfl
      · cases hv
      · cases hv
        exact absurd (hmention hs) (by decide +kernel)
    | spelled hk hkey hv hs =>
      cases kind?_filedReport.symm.trans hk
      cases hkey
    | name hk hv hs => cases kind?_filedReport.symm.trans hk
    | tag hk hs => cases kind?_filedReport.symm.trans hk
  · cases kind?_filedReport.symm.trans hk
    rfl

/-- The folder of a file is taken for its id, placeholder or not. -/
theorem the_folder_of_a_report_does_not_wait : ∃ text before after,
    (NodeFunction.text (.ofNode filedReport "") ⟨none, true, true, true, "UTC", "1"⟩).outcome =
      .ok text ∧
    tokens text = before ++ quoteToken "\x7b\x7btriggerData.folder\x7d\x7d" :: after ∧
    Placeholder.occursIn "\x7b\x7btriggerData.folder\x7d\x7d" = true ∧
    ¬ Deferred (quoteToken "\x7b\x7btriggerData.folder\x7d\x7d") before after := by
  have hrun : ∃ text,
      (NodeFunction.text (.ofNode filedReport "") ⟨none, true, true, true, "UTC", "1"⟩).outcome =
        .ok text := ⟨_, rfl⟩
  obtain ⟨text, htext⟩ := hrun
  have hkey : ("folderId", id) ∈ Kind.constants .driveCreate := by simp [Kind.constants]
  obtain ⟨before, after, hsplit, hnot⟩ :=
    exists_not_deferred (.alone filedReport) htext kind?_filedReport hkey rfl
  exact ⟨text, before, after, htext, hsplit, by decide +kernel, hnot⟩

end Flowscript
