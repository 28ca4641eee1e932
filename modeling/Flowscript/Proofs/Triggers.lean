-- What a bundle says of its triggers in three places: the file that installs
-- them, the steps of the guide and the permissions of the manifest. The file
-- goes by the planned nodes and the start of their tags, the guide by the
-- first segment of the tags of all nodes, and the manifest by the known
-- kinds. The three agree but for a bare tag, a node whose id is taken, and a
-- trigger of no known kind.
import Flowscript.Proofs.Globals
import Flowscript.Proofs.Grants

namespace Flowscript

open Installer (isTriggerTag)

/-! ## Tags of triggers -/

/-- The first segment of a tag tells a trigger, with or without further segments. -/
theorem tagCategory_eq_trigger_iff (tag : String) :
    tagCategory tag = "trigger" ↔ tag = "trigger" ∨ isTriggerTag tag = true := by
  unfold tagCategory Text.splitAt isTriggerTag
  rw [List.isPrefixOf_iff_prefix]
  have hfree : '.' ∉ "trigger".toList := by decide
  constructor
  · intro h
    by_cases hdot : '.' ∈ tag.toList
    · obtain ⟨first, rest, hsplit, hfirst⟩ := List.eq_append_cons_of_mem hdot
      rw [hsplit, Text.cutAt_append_sep hfirst] at h
      have hname : String.ofList first = "trigger" := h
      right
      rw [hsplit, ← String.toList_ofList (l := first), hname]
      exact ⟨rest, rfl⟩
    · rw [Text.cutAt_of_notMem hdot] at h
      left
      rw [← String.ofList_toList (s := tag)]
      exact h
  · rintro (rfl | ⟨rest, hrest⟩)
    · decide
    · have hsplit : tag.toList = "trigger".toList ++ '.' :: rest := hrest.symm
      rw [hsplit, Text.cutAt_append_sep hfree]
      rfl

theorem Node.isTrigger_iff (n : Node) :
    n.isTrigger = true ↔ n.type = "trigger" ∨ isTriggerTag n.type = true := by
  unfold Node.isTrigger Node.category
  rw [beq_iff_eq, tagCategory_eq_trigger_iff]

theorem Plan.distinctNodes_sublist (nodes : List Node) : (distinctNodes nodes).Sublist nodes := by
  induction nodes with
  | nil => exact .slnil
  | cons n rest ih =>
    rw [distinctNodes]
    exact (List.filter_sublist.trans ih).cons_cons n

/-- A node that counts as a trigger by its first segment alone is one that is planned, or has the
bare tag, or is shadowed by an earlier node. -/
theorem Plan.exists_isTrigger_iff (nodes : List Node) :
    (∃ n ∈ nodes, n.isTrigger = true) ↔
      (∃ n ∈ distinctNodes nodes, isTriggerTag n.type = true) ∨
        ∃ n ∈ nodes, n.isTrigger = true ∧ (n.type = "trigger" ∨ n ∉ distinctNodes nodes) := by
  constructor
  · rintro ⟨n, hn, htrigger⟩
    by_cases hplanned : n ∈ distinctNodes nodes
    · rcases n.isTrigger_iff.mp htrigger with hbare | htag
      · exact Or.inr ⟨n, hn, htrigger, Or.inl hbare⟩
      · exact Or.inl ⟨n, hplanned, htag⟩
    · exact Or.inr ⟨n, hn, htrigger, Or.inr hplanned⟩
  · rintro (⟨n, hn, htag⟩ | ⟨n, hn, htrigger, _⟩)
    · exact ⟨n, (distinctNodes_sublist _).subset hn, n.isTrigger_iff.mpr (Or.inr htag)⟩
    · exact ⟨n, hn, htrigger⟩

/-- A plan has a trigger where a node that is not shadowed has the tag of one. -/
theorem Plan.any_isTriggerTag {g : Graph} {c : Choices} {p : Plan}
    (h : (Plan.build g c).outcome = .ok p) :
    (p.nodes.any fun n => isTriggerTag n.tag) = true ↔
      ∃ n ∈ distinctNodes g.nodes, isTriggerTag n.type = true := by
  have hmap : (p.nodes.map PlannedNode.tag).any isTriggerTag =
      ((distinctNodes g.nodes).map Node.type).any isTriggerTag := by
    rw [(sound_of_build h).tags_eq]
  rw [List.any_map, List.any_map] at hmap
  rw [show (p.nodes.any fun n => isTriggerTag n.tag) = _ from hmap, List.any_eq_true]
  rfl

/-! ## The file that installs triggers -/

namespace Compiler

/-- The file of that name has the text of the installer. -/
theorem installer_of_mem {k : Compiler} {p : Plan} {files : List BundleFile}
    (h : (k.files p).outcome = .ok files) {f : BundleFile} (hf : f ∈ files)
    (hname : f.name = Installer.fileName) : (Installer.text? p).outcome = .ok (some f.content) := by
  obtain ⟨main, written, _, hwritten, rfl⟩ := files_eq_ok h
  rcases List.mem_append.mp hf with hf | hf
  · have hmem : f.name ∈ ["Code.js", "RuntimeHelpers.js", "HttpHelpers.js", "StorageHelpers.js"] :=
      List.mem_map_of_mem (f := BundleFile.name) hf
    rw [hname] at hmem
    exact absurd hmem (by decide)
  · obtain ⟨text, htext, rfl⟩ := List.mem_map.mp hf
    rw [hwritten, Option.mem_toList.mp htext]

theorem exists_installer_iff {k : Compiler} {p : Plan} {files : List BundleFile}
    (h : (k.files p).outcome = .ok files) :
    (∃ f ∈ files, f.name = Installer.fileName) ↔
      (p.nodes.any fun n => isTriggerTag n.tag) = true := by
  constructor
  · rintro ⟨f, hf, hname⟩
    rcases Lexer.installer_eq_ok (installer_of_mem h hf hname) with ⟨_, hnone⟩ | ⟨hsome, _⟩
    · cases hnone
    · exact hsome
  · intro hsome
    obtain ⟨main, written, _, hwritten, rfl⟩ := files_eq_ok h
    rcases Lexer.installer_eq_ok hwritten with ⟨hnone, _⟩ | ⟨_, each, _, rfl⟩
    · rw [hnone] at hsome
      cases hsome
    · exact ⟨_, List.mem_append_right _ (List.mem_singleton.mpr rfl), rfl⟩

/-- The file answers requests where a webhook is planned. A webhook is a trigger, so there is a file
to answer them. -/
theorem any_webhook_iff {k : Compiler} {p : Plan} {files : List BundleFile}
    (h : (k.files p).outcome = .ok files) :
    (p.nodes.any fun n => n.kind? == some .webhookTrigger) = true ↔
      ∃ f ∈ files, f.name = Installer.fileName ∧ "doPost" ∈ Lexer.globals f.content ∧
        "doGet" ∈ Lexer.globals f.content := by
  constructor
  · intro hwebhook
    obtain ⟨n, hn, hkind⟩ := List.any_eq_true.mp hwebhook
    have hsome : (p.nodes.any fun n => isTriggerTag n.tag) = true :=
      List.any_eq_true.mpr ⟨n, hn, Lexer.isTriggerTag_of_webhook (beq_iff_eq.mp hkind)⟩
    obtain ⟨f, hf, hname⟩ := (exists_installer_iff h).mpr hsome
    have hglobals := Lexer.globals_installer (installer_of_mem h hf hname)
    rw [hwebhook] at hglobals
    exact ⟨f, hf, hname, by rw [hglobals]; decide, by rw [hglobals]; decide⟩
  · rintro ⟨f, hf, hname, hpost, _⟩
    rw [Lexer.globals_installer (installer_of_mem h hf hname)] at hpost
    revert hpost
    cases p.nodes.any fun n => n.kind? == some .webhookTrigger with
    | true => exact fun _ => rfl
    | false => decide

end Compiler

/-! ## Steps of the guide -/

namespace Guide

theorem install_mem_tasks {files : List BundleFile} {entries : List Secret.Entry}
    {triggers webhook : Bool} :
    "Install Triggers" ∈ (tasks files entries triggers webhook).map Task.title ↔
      triggers = true := by
  cases triggers <;> cases webhook <;> simp [tasks]

theorem publish_mem_tasks {files : List BundleFile} {entries : List Secret.Entry}
    {triggers webhook : Bool} :
    "Publish as Web App" ∈ (tasks files entries triggers webhook).map Task.title ↔
      webhook = true := by
  cases triggers <;> cases webhook <;> simp [tasks]

end Guide

namespace Compiler

/-- The guide of a bundle is that of its files and of the properties of its plan. -/
theorem Made.guide {k : Compiler} {g : Graph} {o : Options} {j : Judgement} {verdict : Verdict}
    {p : Plan} {b : Bundle} (h : Made k g o j verdict p b) :
    ∃ entries, Secret.ofPlan p = .ok entries ∧ b.instructions = Guide.text p b.files entries := by
  obtain ⟨entries, hentries, hguide⟩ := Traced.bind_eq_ok.mp h.guided
  rw [Traced.outcome_note_bind] at hguide
  obtain ⟨_, _, hguide⟩ := Traced.bind_eq_ok.mp hguide
  exact ⟨entries, hentries, (Except.ok.inj hguide).symm⟩

/-- However a graph is compiled, its guide has the steps of its plan, its files and its properties.
One of them installs triggers just where the bundle has the file for it or a node has the bare tag
of a trigger or has it under an id that an earlier node has taken. Another step publishes the bundle
just where that file answers requests. -/
theorem the_guide_installs_what_the_bundle_has_and_what_it_has_not {k : Compiler} {g : Graph}
    {o : Options} {j : Judgement} {b : Bundle} (h : k.Makes g o j b) :
    ∃ p entries, (Plan.build g (o.withDefaults k.settings)).outcome = .ok p ∧
      Secret.ofPlan p = .ok entries ∧ b.instructions = Guide.text p b.files entries ∧
      ("Install Triggers" ∈ (Guide.steps p b.files entries).map Guide.Task.title ↔
        (∃ f ∈ b.files, f.name = Installer.fileName) ∨
          ∃ n ∈ g.nodes, n.isTrigger = true ∧
            (n.type = "trigger" ∨ n ∉ Plan.distinctNodes g.nodes)) ∧
      ("Publish as Web App" ∈ (Guide.steps p b.files entries).map Guide.Task.title ↔
        ∃ f ∈ b.files, f.name = Installer.fileName ∧ "doPost" ∈ Lexer.globals f.content ∧
          "doGet" ∈ Lexer.globals f.content) := by
  obtain ⟨verdict, p, hmade⟩ := h.made
  obtain ⟨entries, hentries, hguide⟩ := hmade.guide
  obtain ⟨hgraph, _⟩ := Plan.graph_of_build hmade.planned
  refine ⟨p, entries, hmade.planned, hentries, hguide, ?_, ?_⟩
  · have htriggers : (!p.graph.triggerNodes.isEmpty) = true ↔
        ∃ n ∈ g.nodes, n.isTrigger = true := by
      simp [hgraph, Graph.triggerNodes]
    rw [Guide.steps, Guide.install_mem_tasks, htriggers, Plan.exists_isTrigger_iff,
      exists_installer_iff hmade.written, Plan.any_isTriggerTag hmade.planned]
  · rw [Guide.steps, Guide.publish_mem_tasks]
    exact any_webhook_iff hmade.written

/-- A webhook, which is installed and published, beside a mail. -/
def webhookMail : Graph := ⟨"w", "Hook", none,
  [⟨"h", "trigger.webhook", []⟩, ⟨"m", "action.gmail.send", []⟩], [⟨"e", "h", "m"⟩]⟩

theorem a_webhook_is_installed_and_published :
    ∃ b p entries,
      (compile { started := ⟨2026, 1, 1, 0, 0, 0, 0, none⟩ } webhookMail {} .ask).result = .ok b ∧
      Secret.ofPlan p = .ok entries ∧ b.instructions = Guide.text p b.files entries ∧
      "Install Triggers" ∈ (Guide.steps p b.files entries).map Guide.Task.title ∧
      "Publish as Web App" ∈ (Guide.steps p b.files entries).map Guide.Task.title := by
  have hrun : ∃ b p,
      (compile { started := ⟨2026, 1, 1, 0, 0, 0, 0, none⟩ } webhookMail {} .ask).result = .ok b ∧
      (Plan.build webhookMail (Options.withDefaults {} {})).outcome = .ok p ∧
      (p.nodes.any fun n => n.kind? == some .webhookTrigger) = true ∧
      ∃ f ∈ b.files, f.name = Installer.fileName :=
    ⟨_, _, rfl, rfl, rfl, _, .tail _ (.tail _ (.tail _ (.tail _ (.head _)))), rfl⟩
  obtain ⟨b, p, hcompiled, hplan, hwebhook, f, hf, hname⟩ := hrun
  obtain ⟨verdict, p', hmade⟩ := Makes.made (Or.inl hcompiled)
  cases hplan.symm.trans hmade.planned
  obtain ⟨p', entries, _, hentries, hguide, hinstall, hpublish⟩ :=
    the_guide_installs_what_the_bundle_has_and_what_it_has_not (Or.inl hcompiled)
  exact ⟨b, p', entries, hcompiled, hentries, hguide, hinstall.mpr (Or.inl ⟨f, hf, hname⟩),
    hpublish.mpr ((any_webhook_iff hmade.written).mp hwebhook)⟩

/-- A node with the bare tag of a trigger. -/
def bareTrigger : Graph := ⟨"w", "Bare", none, [⟨"t", "trigger", []⟩], []⟩

/-- The guide tells to install triggers, but there is no file that could. -/
theorem a_bare_trigger_is_installed_from_no_file :
    ∃ b p entries,
      (compile { started := ⟨2026, 1, 1, 0, 0, 0, 0, none⟩ } bareTrigger {} .ask).result = .ok b ∧
      Secret.ofPlan p = .ok entries ∧ b.instructions = Guide.text p b.files entries ∧
      "Install Triggers" ∈ (Guide.steps p b.files entries).map Guide.Task.title ∧
      ¬ ∃ f ∈ b.files, f.name = Installer.fileName := by
  have hrun : ∃ b,
      (compile { started := ⟨2026, 1, 1, 0, 0, 0, 0, none⟩ } bareTrigger {} .ask).result = .ok b ∧
      b.files.map BundleFile.name =
        ["Code.js", "RuntimeHelpers.js", "HttpHelpers.js", "StorageHelpers.js"] :=
    ⟨_, rfl, rfl⟩
  obtain ⟨b, hcompiled, hnames⟩ := hrun
  obtain ⟨verdict, p, hmade⟩ := Makes.made (Or.inl hcompiled)
  obtain ⟨entries, hentries, hguide⟩ := hmade.guide
  obtain ⟨hgraph, _⟩ := Plan.graph_of_build hmade.planned
  refine ⟨b, p, entries, hcompiled, hentries, hguide,
    Guide.install_mem_tasks.mpr (by rw [hgraph]; decide), ?_⟩
  rintro ⟨f, hf, hname⟩
  have hmem := List.mem_map_of_mem (f := BundleFile.name) hf
  rw [hnames, hname] at hmem
  revert hmem
  decide

end Compiler

/-! ## The permission to manage triggers -/

/-- The call by which a script gets its triggers, up to its arguments. -/
def triggersCall : List Lexer.Token :=
  [.word "ScriptApp".toList, .sign '.', .word "getProjectTriggers".toList, .sign '(']

/-- The manifest asks for a permission. -/
def Bundle.Requests (b : Bundle) (scope : String) : Prop :=
  ∃ (fields : Fields) (scopes : List Value), b.manifest = .object fields ∧
    fields.get? "oauthScopes" = some (.list scopes) ∧ .text scope ∈ scopes

/-- The file that installs triggers gets the triggers of the script. -/
theorem triggersCall_of_installer {p : Plan} {text : String}
    (h : (Installer.text? p).outcome = .ok (some text)) : triggersCall <:+: Lexer.tokens text := by
  rcases Lexer.installer_eq_ok h with ⟨_, hnone⟩ | ⟨_, each, heach, hsome⟩
  · cases hnone
  have hcall : triggersCall <:+:
      Lexer.lineTokens "ScriptApp.getProjectTriggers().forEach(function (trigger) \x7b" := by
    decide +kernel
  have hdelete : ∃ rest, Installer.deleteFunction = Recipe.code [
      "/**",
      " * Remove every trigger that runs this workflow.",
      " */",
      "function deleteTriggers() \x7b"] ++ ([.deeper] ++ (Recipe.code
        ["ScriptApp.getProjectTriggers().forEach(function (trigger) \x7b"] ++ rest)) := ⟨_, rfl⟩
  obtain ⟨rest, hdelete⟩ := hdelete
  have hblank : Lexer.StepsDeclare .outside (Recipe.code [""]) [] .outside :=
    .fixed rfl rfl rfl rfl (.nil _)
  have hbefore := (((Lexer.stepsDeclare_header p).before
    (Lexer.stepsDeclare_installFunction heach.neutral)).append hblank).append
      (Lexer.stepsDeclare_deleteOpening.append (.deeper _))
  have hinside := hbefore.infix_tokens rfl
    "ScriptApp.getProjectTriggers().forEach(function (trigger) \x7b" (rest ++
      if p.nodes.any fun n => n.kind? == some .webhookTrigger
      then Recipe.code [""] ++ Installer.webhookFunctions else [])
  rw [Option.some.inj hsome, hdelete]
  simp only [List.append_assoc] at hinside ⊢
  exact hcall.trans hinside

/-- The known triggers are just the kinds that ask for the permission. -/
theorem scriptApp_mem_ofTag_iff (tag : String) (config : Fields) :
    Scope.scriptApp ∈ Scope.ofTag tag config ↔
      isTriggerTag tag = true ∧ Kind.ofTag? tag ≠ none := by
  unfold Scope.ofTag
  cases hkind : Kind.ofTag? tag with
  | none => simp
  | some k =>
    have hknown : Scope.scriptApp ∈ Scope.ofKind k ↔ isTriggerTag k.tag = true := by
      cases k <;> decide
    rw [Lexer.tag_of_ofTag? hkind, ← hknown]
    cases k with
    | gmailRead =>
      have hmark : Scope.scriptApp ≠ Scope.modifyMail := by decide
      simp [hmark]
    | _ => simp

namespace Compiler

theorem Made.requests_iff {k : Compiler} {g : Graph} {o : Options} {j : Judgement}
    {verdict : Verdict} {p : Plan} {b : Bundle} (h : Made k g o j verdict p b) (scope : String) :
    b.Requests scope ↔ .text scope ∈ b.requiredScopes := by
  obtain ⟨keys, _, hgranted⟩ := Traced.bind_eq_ok.mp h.granted
  rw [Traced.outcome_note_bind] at hgranted
  obtain ⟨hmanifest, hscopes⟩ := Prod.mk.inj (Except.ok.inj hgranted)
  rw [← hscopes]
  constructor
  · rintro ⟨fields, scopes, hobject, hfield, hscope⟩
    rw [← hmanifest] at hobject
    cases hobject
    cases hfield
    exact hscope
  · exact fun hscope => ⟨_, keys, hmanifest.symm, rfl, hscope⟩

/-- Where a bundle is compiled on the verdict on the structure of the graph, a file that installs
triggers manages the triggers of the script, and the manifest asks for the permission just where some
trigger of the graph is of a known kind. Without that file the permission is not asked for. -/
theorem triggers_may_be_managed_unless_all_are_unknown {k : Compiler} {g : Graph} {o : Options}
    {b : Bundle} (hk : k.validator = Verdict.structural) (h : k.Makes g o .ask b) :
    (b.Requests Scope.scriptApp → ∃ f ∈ b.files, f.name = Installer.fileName) ∧
      ∀ f ∈ b.files, f.name = Installer.fileName → triggersCall <:+: Lexer.tokens f.content ∧
        (b.Requests Scope.scriptApp ↔
          ∃ n ∈ g.nodes, isTriggerTag n.type = true ∧ Kind.ofTag? n.type ≠ none) := by
  obtain ⟨verdict, p, hmade⟩ := h.made
  have hmail : Scope.scriptApp ≠ Scope.sendMail := by decide
  have hrequests : b.Requests Scope.scriptApp ↔
      ∃ n ∈ g.nodes, isTriggerTag n.type = true ∧ Kind.ofTag? n.type ≠ none := by
    rw [hmade.requests_iff, hmade.text_mem_requiredScopes hk]
    simp only [scriptApp_mem_ofTag_iff, hmail, and_false, or_false]
  refine ⟨fun hasked => ?_, fun f hf hname => ⟨?_, hrequests⟩⟩
  · obtain ⟨n, hn, htag, _⟩ := hrequests.mp hasked
    rw [exists_installer_iff hmade.written, List.any_eq_true]
    have hmem : n.type ∈ p.nodes.map PlannedNode.tag := by
      rw [(hmade.nodes_eq hk).2]
      exact List.mem_map_of_mem hn
    obtain ⟨m, hm, hmtag⟩ := List.mem_map.mp hmem
    exact ⟨m, hm, hmtag ▸ htag⟩
  · exact triggersCall_of_installer (installer_of_mem hmade.written hf hname)

/-- A trigger of no known kind beside a schedule. -/
def calendarAndClock : Graph := ⟨"w", "Both", none,
  [⟨"t", "trigger.calendar.new_event", []⟩, ⟨"c", "trigger.time.cron", []⟩], []⟩

theorem an_unknown_trigger_beside_a_clock_may_be_managed :
    ∃ b f,
      (compile { started := ⟨2026, 1, 1, 0, 0, 0, 0, none⟩ } calendarAndClock {} .ask).result =
        .ok b ∧
      f ∈ b.files ∧ f.name = Installer.fileName ∧ triggersCall <:+: Lexer.tokens f.content ∧
      b.Requests Scope.scriptApp := by
  have hrun : ∃ b,
      (compile { started := ⟨2026, 1, 1, 0, 0, 0, 0, none⟩ } calendarAndClock {} .ask).result =
        .ok b ∧
      ∃ f ∈ b.files, f.name = Installer.fileName :=
    ⟨_, rfl, _, .tail _ (.tail _ (.tail _ (.tail _ (.head _)))), rfl⟩
  obtain ⟨b, hcompiled, f, hf, hname⟩ := hrun
  obtain ⟨hcall, hrequests⟩ :=
    (triggers_may_be_managed_unless_all_are_unknown rfl (Or.inl hcompiled)).2 f hf hname
  exact ⟨b, f, hcompiled, hf, hname, hcall, hrequests.mpr
    ⟨_, .tail _ (.head _), by decide, by decide⟩⟩

/-- A trigger of no known kind. -/
def calendarTrigger : Graph :=
  ⟨"w", "Calendar", none, [⟨"t", "trigger.calendar.new_event", []⟩], []⟩

/-- The file manages triggers, but the only permission is that for notices of failure. -/
theorem an_unknown_trigger_alone_may_not_be_managed :
    ∃ b f,
      (compile { started := ⟨2026, 1, 1, 0, 0, 0, 0, none⟩ } calendarTrigger {} .ask).result =
        .ok b ∧
      f ∈ b.files ∧ f.name = Installer.fileName ∧ triggersCall <:+: Lexer.tokens f.content ∧
      b.requiredScopes = [.text Scope.sendMail] ∧ ¬ b.Requests Scope.scriptApp := by
  have hrun : ∃ b,
      (compile { started := ⟨2026, 1, 1, 0, 0, 0, 0, none⟩ } calendarTrigger {} .ask).result =
        .ok b ∧
      b.requiredScopes = [.text Scope.sendMail] ∧ ∃ f ∈ b.files, f.name = Installer.fileName :=
    ⟨_, rfl, rfl, _, .tail _ (.tail _ (.tail _ (.tail _ (.head _)))), rfl⟩
  obtain ⟨b, hcompiled, hscopes, f, hf, hname⟩ := hrun
  obtain ⟨verdict, p, hmade⟩ := Makes.made (Or.inl hcompiled)
  refine ⟨b, f, hcompiled, hf, hname,
    triggersCall_of_installer (installer_of_mem hmade.written hf hname), hscopes, ?_⟩
  rw [hmade.requests_iff, hscopes, List.mem_singleton]
  have hother : Scope.scriptApp ≠ Scope.sendMail := by decide
  exact fun hsame => hother (Value.text.inj hsame)

end Compiler

end Flowscript
