-- Permissions. The function of a node names no service but those of its kind,
-- and the verdict on the structure of a graph asks for a permission of each
-- of them. A logger that saves its message to a sheet is the one exception:
-- its kind asks for nothing, so its call is granted only where another node
-- of the graph brings a permission for sheets.
import Flowscript.Proofs.Closure
import Flowscript.Proofs.FunctionTokens
import Flowscript.Proofs.Validity

namespace Flowscript

open Lexer (Service Token lineTokens notMem_of_avoids tokens)

/-! ## Services that a function names -/

/-- The object of the service stands in the code as a word, outside strings and comments. Without it
the service cannot be called. -/
def Names (text : String) (s : Service) : Prop := .word s.object.toList ∈ tokens text

/-- The call that opens a sheet, up to its argument. -/
def sheetCall : List Token :=
  [.word Service.spreadsheet.object.toList, .sign '.', .word "openById".toList, .sign '(']

namespace Lexer

theorem Service.letters_injective {s t : Service} (h : s.letters = t.letters) : s = t := by
  cases s <;> cases t <;> first | rfl | cases h

theorem Service.letters_mem (s : Service) : s.letters ∈ services := List.mem_map_of_mem s.mem_all

/-- The letters of a service that is not of the kind are foreign. -/
theorem Service.letters_mem_foreign {s : Service} {saves : Bool} {k : Option Kind}
    (h : s ∉ Service.ofKind saves k) : s.letters ∈ foreign saves k := by
  refine List.mem_filter.mpr ⟨services_subset_watched s.letters_mem, decide_eq_true fun hmem => ?_⟩
  obtain ⟨t, ht, he⟩ := List.mem_map.mp hmem
  exact h (Service.letters_injective he ▸ ht)

/-- A step of a body brings no service but those of the kind. -/
theorem mem_ofKind_of_step {n : PlannedNode} {c : Choices} {body : List Step} {facts : Facts}
    (hbody : (n.recipe.body n c).outcome = .ok body) (hfacts : n.recipe.facts n c = .ok facts)
    (hready : ∀ kind, .slot kind ∈ body →
      (Snippet.lines kind facts).outcome = .ok (Snippet.linesOr facts kind))
    {st : Step} (hst : st ∈ body) {s : Service}
    (hs : .word s.letters ∈ stepTokens (Snippet.linesOr facts) st) :
    s ∈ Service.ofKind n.saves n.kind? := by
  cases st with
  | line parts =>
    by_contra hforeign
    exact notMem_of_avoids (Service.letters_mem_foreign hforeign)
      (tame_body hbody hst).avoids.tokens hs
  | slot kind =>
    obtain ⟨l, hl, hs⟩ := List.mem_flatMap.mp hs
    have hline := tame_snippet (usual_of_facts hfacts) (hready kind hst) l hl
    have hguarded : s.letters ∈ guarded facts.rateLimiting := List.mem_append_left _ s.letters_mem
    exact absurd hs (notMem_of_avoids hguarded hline.avoids.tokens)
  | deeper => cases hs
  | back => cases hs

end Lexer

/-- A function names no service but those of the node's kind. -/
theorem mem_ofKind_of_names {n : PlannedNode} {c : Choices} {text : String}
    (hname : IsFunctionName n.functionName) (h : (NodeFunction.text n c).outcome = .ok text)
    {s : Service} (hs : Names text s) : s ∈ Service.ofKind n.saves n.kind? := by
  obtain ⟨body, facts, hbody, hfacts, hready, htokens⟩ := Lexer.tokens_text hname h
  unfold Names at hs
  rw [htokens, s.toList_object, List.append_assoc, List.mem_append, List.mem_append] at hs
  rcases hs with hs | hs | hs
  · exact absurd hs (notMem_of_avoids (Lexer.services_subset_watched s.letters_mem)
      (Lexer.avoids_declaration hname).tokens)
  · obtain ⟨st, hst, hs⟩ := List.mem_flatMap.mp hs
    exact Lexer.mem_ofKind_of_step hbody hfacts hready hst hs
  · have hlast : lineTokens "\x7d" = [.sign '\x7d'] := rfl
    rw [hlast] at hs
    cases List.mem_singleton.mp hs

theorem infix_lineTokens {head : String} {ts : List Token}
    (h : ts <:+: (Lexer.scan .start head.toList).2) (x : String) :
    ts <:+: lineTokens (head ++ x) := by
  have hhead : Lexer.Scans .start head.toList _ _ := rfl
  have hrest : Lexer.Scans (Lexer.scan .start head.toList).1 (x.toList ++ ['\n']) _ _ := rfl
  have hall := hhead.append hrest
  unfold lineTokens
  rw [String.toList_append, List.append_assoc, hall]
  exact h.trans (List.infix_append_left ..)

theorem logSheetParts_mem {n : PlannedNode} {c : Choices} {body : List Step}
    (h : (n.recipe.body n c).outcome = .ok body) (hkind : n.kind? = some .logger)
    (hsaves : n.saves = true) : .line (Recipe.logSheetParts n.config) ∈ body := by
  rw [PlannedNode.recipe_of_kind hkind] at h
  obtain ⟨o, ho, rfl, -⟩ := Recipe.body_eq_ok.mp h
  obtain ⟨_, _, ho⟩ := Traced.bind_eq_ok.mp ho
  cases ho
  unfold PlannedNode.saves at hsaves
  simp [hsaves]

theorem sheetCall_line (n : PlannedNode) :
    sheetCall <:+: lineTokens (lineCode (Recipe.logSheetParts n.config)) := by
  have hhead : sheetCall <:+:
      (Lexer.scan .start "  const logSheet = SpreadsheetApp.openById(".toList).2 :=
    ⟨[.word "const".toList, .word "logSheet".toList, .sign '='], [], rfl⟩
  rw [Recipe.logSheetParts, lineCode_cons]
  exact infix_lineTokens hhead _

/-- A logger that saves its message opens a sheet. -/
theorem sheetCall_of_saves {n : PlannedNode} {c : Choices} {text : String}
    (hname : IsFunctionName n.functionName) (h : (NodeFunction.text n c).outcome = .ok text)
    (hkind : n.kind? = some .logger) (hsaves : n.saves = true) : sheetCall <:+: tokens text := by
  obtain ⟨body, facts, hbody, _, _, htokens⟩ := Lexer.tokens_text hname h
  have hline : Lexer.stepTokens (Snippet.linesOr facts) (.line (Recipe.logSheetParts n.config)) <:+:
      body.flatMap (Lexer.stepTokens (Snippet.linesOr facts)) :=
    List.infix_of_mem_flatten (List.mem_map_of_mem (logSheetParts_mem hbody hkind hsaves))
  rw [htokens]
  exact ((sheetCall_line n).trans hline).trans (List.infix_append ..)

/-! ## Permissions that are asked for -/

/-- The permissions of which a service needs one. -/
def Lexer.Service.scopes : Service → List String
  | .gmail => [Scope.readMail, Scope.modifyMail]
  | .spreadsheet => [Scope.sheets, Scope.readSheets]
  | .drive => [Scope.driveFile]
  | .urlFetch => [Scope.externalRequest]
  | .mail => [Scope.sendMail]

/-- The bundle asks for a permission of the service. -/
def Bundle.Grants (b : Bundle) (s : Service) : Prop :=
  ∃ scope ∈ s.scopes, .text scope ∈ b.requiredScopes

/-- Whether the kind of the node is one for sheets. -/
def PlannedNode.isForSheets (n : PlannedNode) : Bool :=
  n.kind? == some .sheetsTrigger || n.kind? == some .sheetsAppend || n.kind? == some .sheetsRead

/-- The node is a logger that saves its message, and the plan has no node for sheets. -/
def Plan.SavesAlone (p : Plan) (n : PlannedNode) : Prop :=
  n.kind? = some .logger ∧ n.saves = true ∧ ∀ m ∈ p.nodes, m.isForSheets = false

theorem Manifest.text_mem_distinct {s : String} {vs : List Value} :
    .text s ∈ distinct vs ↔ .text s ∈ vs := by
  induction vs with
  | nil => exact Iff.rfl
  | cons v rest ih =>
    rw [distinct, List.mem_cons, List.mem_cons, List.mem_filter, ih]
    have hsame : v.sameKey (.text s) = true → .text s = v := by
      intro h
      cases v <;> simp_all [Value.sameKey]
    by_cases hv : v.sameKey (.text s) = true
    · simp [hsame hv]
    · simp [hv]

theorem Manifest.text_mem_of_build {s : Settings} {zone : Option String} {scopes : List Value}
    {manifest : Value} {granted : List Value}
    (h : (Manifest.build s zone scopes).outcome = .ok (manifest, granted)) {scope : String} :
    .text scope ∈ granted ↔ .text scope ∈ scopes := by
  obtain ⟨keys, hkeys, h⟩ := Traced.bind_eq_ok.mp h
  cases h
  have hdistinct : Manifest.distinctKeys scopes = .ok granted := hkeys
  unfold Manifest.distinctKeys at hdistinct
  split at hdistinct
  · cases hdistinct
  · cases hdistinct
    exact Manifest.text_mem_distinct

namespace Verdict

theorem text_mem_requiredScopes {g : Graph} {scope : String} :
    .text scope ∈ (onStructure g).requiredScopes ↔
      ∃ n ∈ g.nodes, scope ∈ Scope.ofTag n.type n.data := by
  have htyped : ∀ n : Node, scope ∈ Scope.ofTag n.type n.data → n.type ≠ "" := by
    intro n hscope htype
    have hnone : Kind.ofTag? "" = none := by decide
    simp [htype, Scope.ofTag, hnone] at hscope
  have hwrap : ∀ scopes : List String, .text scope ∈ scopes.map Value.text ↔ scope ∈ scopes :=
    fun scopes => List.mem_map_of_injective fun _ _ => Value.text.inj
  unfold onStructure
  dsimp only
  rw [hwrap, List.mem_eraseDups, List.mem_flatMap]
  refine exists_congr fun n => and_congr_left fun hscope => ?_
  rw [List.mem_filter, decide_eq_true_eq]
  exact and_iff_left (htyped n hscope)

end Verdict

/-! ## Permissions and services -/

/-- A tag asks for a permission of just those services that the functions of its kind name, the sheet
that a logger saves to aside. -/
theorem scope_mem_ofTag_iff (s : Service) (tag : String) (config : Fields) :
    (∃ scope ∈ s.scopes, scope ∈ Scope.ofTag tag config) ↔
      s ∈ Service.ofKind false (Kind.ofTag? tag) := by
  unfold Scope.ofTag
  cases Kind.ofTag? tag with
  | none => simp [Service.ofKind]
  | some k =>
    cases k <;> cases s <;> simp [Scope.ofKind, Service.scopes, Service.ofKind, Scope.readMail,
      Scope.modifyMail, Scope.sheets, Scope.readSheets, Scope.driveFile, Scope.externalRequest,
      Scope.sendMail, Scope.scriptApp]

theorem mem_ofKind_iff {s : Service} {saves : Bool} {k : Option Kind} :
    s ∈ Service.ofKind saves k ↔ s ∈ Service.ofKind false k ∨
      s = .spreadsheet ∧ k = some .logger ∧ saves = true := by
  cases k with
  | none => simp [Service.ofKind]
  | some k => cases k <;> cases saves <;> simp [Service.ofKind]

theorem PlannedNode.isForSheets_iff (n : PlannedNode) :
    n.isForSheets = true ↔ .spreadsheet ∈ Service.ofKind false n.kind? := by
  unfold PlannedNode.isForSheets
  cases n.kind? with
  | none => decide
  | some k => cases k <;> decide

namespace Compiler

/-- Where the structure is judged, no node shadows another. -/
theorem Made.distinctNodes_eq {k : Compiler} {g : Graph} {o : Options} {verdict : Verdict}
    {p : Plan} {b : Bundle} (h : Made k g o .ask verdict p b)
    (hk : k.validator = Verdict.structural) :
    Plan.distinctNodes g.nodes = g.nodes := by
  have hjudged : (Verdict.structural g).outcome = .ok verdict := hk ▸ h.judged
  have hvalid := h.valid
  rw [Verdict.structural_eq_ok hjudged] at hvalid
  exact Plan.distinctNodes_of_nodup ((Verdict.valid_onStructure g).mp hvalid).2.1

/-- Where the structure is judged, the planned nodes are those of the graph. -/
theorem Made.nodes_eq {k : Compiler} {g : Graph} {o : Options} {verdict : Verdict} {p : Plan}
    {b : Bundle} (h : Made k g o .ask verdict p b) (hk : k.validator = Verdict.structural) :
    p.nodes.map PlannedNode.id = g.nodes.map Node.id ∧
      p.nodes.map PlannedNode.tag = g.nodes.map Node.type := by
  have hsound := Plan.sound_of_build h.planned
  rw [hsound.ids_eq, hsound.tags_eq, h.distinctNodes_eq hk]
  exact ⟨rfl, rfl⟩

theorem Made.text_mem_requiredScopes {k : Compiler} {g : Graph} {o : Options} {verdict : Verdict}
    {p : Plan} {b : Bundle} (h : Made k g o .ask verdict p b)
    (hk : k.validator = Verdict.structural) {scope : String} :
    .text scope ∈ b.requiredScopes ↔ (∃ n ∈ g.nodes, scope ∈ Scope.ofTag n.type n.data) ∨
      (o.withDefaults k.settings).includeErrorHandling = true ∧ scope = Scope.sendMail := by
  have hjudged : (Verdict.structural g).outcome = .ok verdict := hk ▸ h.judged
  rw [Manifest.text_mem_of_build h.granted, Verdict.structural_eq_ok hjudged, scopes,
    List.mem_append, Verdict.text_mem_requiredScopes]
  refine or_congr_right ?_
  split <;> simp_all

/-- What a bundle grants: the services of the kinds of its nodes, and mail where failures are told
of. -/
theorem Made.grants_iff {k : Compiler} {g : Graph} {o : Options} {verdict : Verdict} {p : Plan}
    {b : Bundle} (h : Made k g o .ask verdict p b) (hk : k.validator = Verdict.structural)
    (s : Service) : b.Grants s ↔ (∃ m ∈ p.nodes, s ∈ Service.ofKind false m.kind?) ∨
      (o.withDefaults k.settings).includeErrorHandling = true ∧ s = .mail := by
  have hmail : Scope.sendMail ∈ s.scopes ↔ s = .mail := by
    cases s <;> decide
  have hnodes : (∃ tag ∈ p.nodes.map PlannedNode.tag, s ∈ Service.ofKind false (Kind.ofTag? tag)) ↔
      ∃ tag ∈ g.nodes.map Node.type, s ∈ Service.ofKind false (Kind.ofTag? tag) := by
    rw [(h.nodes_eq hk).2]
  have hplanned : (∃ m ∈ p.nodes, s ∈ Service.ofKind false m.kind?) ↔
      ∃ n ∈ g.nodes, ∃ scope ∈ s.scopes, scope ∈ Scope.ofTag n.type n.data := by
    simpa [scope_mem_ofTag_iff, PlannedNode.kind?] using hnodes
  rw [hplanned, ← hmail]
  unfold Bundle.Grants
  simp only [h.text_mem_requiredScopes hk]
  constructor
  · rintro ⟨scope, hscope, ⟨n, hn, hask⟩ | ⟨htold, rfl⟩⟩
    · exact Or.inl ⟨n, hn, scope, hscope, hask⟩
    · exact Or.inr ⟨htold, hscope⟩
  · rintro (⟨n, hn, scope, hscope, hask⟩ | ⟨htold, hscope⟩)
    · exact ⟨scope, hscope, Or.inl ⟨n, hn, hask⟩⟩
    · exact ⟨_, hscope, Or.inr ⟨htold, rfl⟩⟩

/-- A service that a function names is granted unless the node is a logger that saves alone. -/
theorem Made.grants_iff_of_names {k : Compiler} {g : Graph} {o : Options} {verdict : Verdict}
    {p : Plan} {b : Bundle} (h : Made k g o .ask verdict p b)
    (hk : k.validator = Verdict.structural) {n : PlannedNode} (hn : n ∈ p.nodes) {s : Service}
    (hs : s ∈ Service.ofKind n.saves n.kind?) : b.Grants s ↔ ¬ p.SavesAlone n := by
  rw [h.grants_iff hk]
  rcases mem_ofKind_iff.mp hs with hown | ⟨rfl, hkind, hsaves⟩
  · refine iff_of_true (Or.inl ⟨n, hn, hown⟩) fun halone => ?_
    rw [halone.1] at hown
    cases hown
  · simp [Plan.SavesAlone, hkind, hsaves, PlannedNode.isForSheets_iff]

end Compiler

/-! ## Calls and permissions -/

namespace Compiler

/-- Where a bundle is compiled on the verdict on the structure of the graph, each service that the
function of a node names is granted, unless the node is a logger that saves its message and no node
of the graph is for sheets. Such a logger does open a sheet, so its permission is missing. -/
theorem every_call_is_granted_unless_a_logger_saves_alone {k : Compiler} {g : Graph} {o : Options}
    {b : Bundle} (hk : k.validator = Verdict.structural) (h : k.Makes g o .ask b) :
    ∃ p main, (Plan.build g (o.withDefaults k.settings)).outcome = .ok p ∧
      b.file? Bundle.mainFile = some main ∧
      p.nodes.map PlannedNode.id = g.nodes.map Node.id ∧
      p.nodes.map PlannedNode.tag = g.nodes.map Node.type ∧
      ∀ n ∈ p.nodes, ∃ text, (NodeFunction.text n p.choices).outcome = .ok text ∧
        text.toList <:+: main.content.toList ∧
        (∀ s, Names text s → (b.Grants s ↔ ¬ p.SavesAlone n)) ∧
        (p.SavesAlone n → sheetCall <:+: tokens text) := by
  obtain ⟨verdict, p, hmade⟩ := h.made
  obtain ⟨main, hmain, hfile⟩ := hmade.main
  obtain ⟨hids, htags⟩ := hmade.nodes_eq hk
  refine ⟨p, _, hmade.planned, hfile, hids, htags, fun n hn => ?_⟩
  have hname := (Plan.sound_of_build hmade.planned).isFunctionName n hn
  obtain ⟨text, htext, hinside⟩ := Lexer.function_infix_of_text hmain hn
  refine ⟨text, htext, hinside, fun s hs => ?_, fun halone => ?_⟩
  · exact hmade.grants_iff_of_names hk hn (mem_ofKind_of_names hname htext hs)
  · exact sheetCall_of_saves hname htext halone.1 halone.2.1

/-- A logger that saves its message, beside a node that reads a sheet. -/
def savedBesideRead : Graph := ⟨"w", "Log", none,
  [⟨"l", "utility.logger", [("saveToSheet", .bool true)]⟩, ⟨"r", "action.sheets.read", []⟩],
  [⟨"e", "r", "l"⟩]⟩

theorem a_message_saved_beside_a_read_is_granted :
    ∃ b p n text,
      (compile { started := ⟨2026, 1, 1, 0, 0, 0, 0, none⟩ } savedBesideRead {} .ask).result =
        .ok b ∧
      (Plan.build savedBesideRead (Options.withDefaults {} {})).outcome = .ok p ∧
      n ∈ p.nodes ∧ n.kind? = some .logger ∧ n.saves = true ∧
      (NodeFunction.text n p.choices).outcome = .ok text ∧ Names text .spreadsheet ∧
      b.Grants .spreadsheet := by
  have hrun : ∃ b p,
      (compile { started := ⟨2026, 1, 1, 0, 0, 0, 0, none⟩ } savedBesideRead {} .ask).result =
        .ok b ∧
      (Plan.build savedBesideRead (Options.withDefaults {} {})).outcome = .ok p ∧
      ∃ n ∈ p.nodes, n.kind? = some .logger ∧ n.saves = true ∧ ∃ m ∈ p.nodes, m.isForSheets = true :=
    ⟨_, _, rfl, rfl, _, .head _, rfl, rfl, _, .tail _ (.head _), rfl⟩
  obtain ⟨b, p, hcompiled, hplan, n, hn, hkind, hsaves, m, hm, hsheets⟩ := hrun
  obtain ⟨p', _, hplan', _, _, _, hnodes⟩ :=
    every_call_is_granted_unless_a_logger_saves_alone rfl (Or.inl hcompiled)
  cases hplan.symm.trans hplan'
  obtain ⟨text, htext, _, hgrants, _⟩ := hnodes n hn
  have hname := (Plan.sound_of_build hplan).isFunctionName n hn
  have hnamed : Names text .spreadsheet :=
    (sheetCall_of_saves hname htext hkind hsaves).subset (List.mem_cons_self ..)
  refine ⟨b, p, n, text, hcompiled, hplan, hn, hkind, hsaves, htext, hnamed, ?_⟩
  refine (hgrants _ hnamed).mpr fun halone => ?_
  rw [halone.2.2 m hm] at hsheets
  cases hsheets

/-- A logger that saves its message, and nothing else. -/
def savedAlone : Graph :=
  ⟨"w", "Log", none, [⟨"l", "utility.logger", [("saveToSheet", .bool true)]⟩], []⟩

/-- The sheet is opened, but the only permission is that for notices of failure. -/
theorem a_message_saved_alone_is_not_granted :
    ∃ b p n text,
      (compile { started := ⟨2026, 1, 1, 0, 0, 0, 0, none⟩ } savedAlone {} .ask).result = .ok b ∧
      (Plan.build savedAlone (Options.withDefaults {} {})).outcome = .ok p ∧ n ∈ p.nodes ∧
      (NodeFunction.text n p.choices).outcome = .ok text ∧ sheetCall <:+: tokens text ∧
      b.requiredScopes = [.text Scope.sendMail] ∧ ¬ b.Grants .spreadsheet := by
  have hrun : ∃ b p n text,
      (compile { started := ⟨2026, 1, 1, 0, 0, 0, 0, none⟩ } savedAlone {} .ask).result = .ok b ∧
      (Plan.build savedAlone (Options.withDefaults {} {})).outcome = .ok p ∧ n ∈ p.nodes ∧
      (NodeFunction.text n p.choices).outcome = .ok text ∧ n.kind? = some .logger ∧
      n.saves = true ∧ b.requiredScopes = [.text Scope.sendMail] :=
    ⟨_, _, _, _, rfl, rfl, .head _, rfl, rfl, rfl, rfl⟩
  obtain ⟨b, p, n, text, hcompiled, hplan, hn, htext, hkind, hsaves, hscopes⟩ := hrun
  have hname := (Plan.sound_of_build hplan).isFunctionName n hn
  refine ⟨b, p, n, text, hcompiled, hplan, hn, htext, sheetCall_of_saves hname htext hkind hsaves,
    hscopes, ?_⟩
  rintro ⟨scope, hscope, hmem⟩
  rw [hscopes, List.mem_singleton] at hmem
  cases Value.text.inj hmem
  revert hscope
  decide

end Compiler

end Flowscript
