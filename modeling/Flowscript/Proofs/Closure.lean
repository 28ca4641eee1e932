-- The files of a bundle. The main file and the file that installs triggers
-- are lexically closed, whatever text the ids, tags, names, schedules and
-- settings of the graph hold.
import Flowscript.Bundle.Basic
import Flowscript.Proofs.Script

namespace Flowscript

namespace Lexer

open Installer
open Recipe (code remark)
open Text (Unbroken)

/-! ## Clock triggers -/

theorem neutral_of_reads {x : String}
    (h : ∀ closers, Reads ⟨.code, closers⟩ x ⟨.code, closers⟩) : Neutral x :=
  ⟨fun closers => (h closers).read_eq, (h []).unbroken⟩

theorem neutral_int (n : Int) : Neutral (toString n) := neutral_of_inert (inert_int n)

theorem neutral_chain (timing : Timing) : Neutral timing.chain := by
  apply neutral_of_reads
  intro closers
  cases timing with
  | everyMinutes n =>
    exact ((Reads.fixed rfl rfl).append (neutral_int n).reads).append (.fixed rfl rfl)
  | everyHours n =>
    exact ((Reads.fixed rfl rfl).append (neutral_int n).reads).append (.fixed rfl rfl)
  | everyDay => exact .fixed rfl rfl
  | everyWeek => exact .fixed rfl rfl
  | dailyAt hour minute =>
    exact ((((Reads.fixed rfl rfl).append (neutral_int hour).reads).append (.fixed rfl rfl)).append
      (neutral_int minute).reads).append (.fixed rfl rfl)
  | weeklyAt day hour minute =>
    have hday : Neutral day.name := by
      cases day <;> exact neutral_of_inert (by decide)
    exact ((((((Reads.fixed rfl rfl).append hday.reads).append (.fixed rfl rfl)).append
      (neutral_int hour).reads).append (.fixed rfl rfl)).append
      (neutral_int minute).reads).append (.fixed rfl rfl)

theorem neutral_clockLine (timing : Timing) : StepsNeutral (code [clockLine timing.chain]) := by
  have hchain := neutral_chain timing
  intro closers
  unfold clockLine
  simp only [String.append_assoc]
  repeat' first
    | with_reducible apply PartsRead.joined
    | with_reducible apply PartsRead.spliced (neutral_quote _).reads
    | with_reducible apply PartsRead.spliced hchain.reads
    | with_reducible apply Plain.joined
    | constructor

/-! ## Installing -/

theorem neutral_pollingSteps {n : PlannedNode} {source : String} (hsource : Unbroken source)
    {steps : List Step} (h : (pollingSteps n source).outcome = .ok steps) : StepsNeutral steps := by
  obtain ⟨minutes, _, h⟩ := Traced.bind_eq_ok.mp h
  cases h
  refine .append (neutral_remark ?_) (neutral_clockLine _)
  exact (((((unbroken_remark n.id).append (by decide)).append hsource).append (by decide)).append
    (inert_int minutes).unbroken).append (by decide)

theorem unbroken_clockRemarks (n : PlannedNode) (found : Schedule) :
    ∀ x ∈ clockRemarks n found, Unbroken x := by
  refine List.forall_mem_cons.mpr ⟨?_, fun x hx => ?_⟩
  · exact (((unbroken_remark n.id).append (by decide)).append (unbroken_remark _)).append
      (by decide)
  · obtain ⟨note, _, rfl⟩ := List.mem_map.mp hx
    exact unbroken_remark note

theorem neutral_remarks {xs : List String} (h : ∀ x ∈ xs, Unbroken x) :
    StepsNeutral (xs.map remark) := by
  induction xs with
  | nil => exact fun _ => .nil
  | cons x rest ih =>
    obtain ⟨hx, hrest⟩ := List.forall_mem_cons.mp h
    exact (neutral_remark hx).append (ih hrest)

theorem neutral_installSteps {n : PlannedNode} {steps : List Step}
    (h : (installSteps n).outcome = .ok steps) : StepsNeutral steps := by
  unfold installSteps at h
  split at h
  · obtain ⟨schedule, _, h⟩ := Traced.bind_eq_ok.mp h
    obtain ⟨found, _, h⟩ := Traced.bind_eq_ok.mp h
    cases h
    exact .append (neutral_remarks (unbroken_clockRemarks n found)) (neutral_clockLine _)
  · exact neutral_pollingSteps (by decide) h
  · exact neutral_pollingSteps (by decide) h
  · cases h
    refine .append (neutral_remark ((unbroken_remark n.id).append (by decide))) ?_
    intro closers
    repeat' constructor
  · cases h
    exact neutral_remark (((unbroken_remark n.id).append (by decide)).append (unbroken_remark n.tag))

theorem neutral_each {each : List (List Step)} (h : ∀ steps ∈ each, StepsNeutral steps) :
    StepsNeutral (each.flatMap fun steps => code [""] ++ steps) := by
  induction each with
  | nil => exact fun _ => .nil
  | cons steps rest ih =>
    rw [List.flatMap_cons]
    exact (neutral_blank.append (h steps (by simp))).append
      (ih fun x hx => h x (List.mem_cons_of_mem _ hx))

theorem endsIn_installFunction {each : List (List Step)}
    (h : ∀ steps ∈ each, StepsNeutral steps) :
    ∃ rest, installFunction each = code [
        "/**",
        " * Install all triggers for this workflow.  Safe to run repeatedly.",
        " */",
        "function installTriggers() \x7b"] ++ ([.deeper] ++ rest) ∧
      EndsIn (fun closers => ⟨.code, closers⟩) rest [] := by
  unfold installFunction
  simp only [List.append_assoc]
  refine ⟨_, rfl, ?_⟩
  refine .before (t := fun closers => ⟨.code, closers⟩) (fun _ => by repeat' constructor) ?_
  refine .before (neutral_each h) ?_
  exact ⟨_, rfl, fun _ => by repeat' constructor⟩

theorem neutral_installFunction {each : List (List Step)} (h : ∀ steps ∈ each, StepsNeutral steps) :
    StepsNeutral (installFunction each) := by
  intro closers
  obtain ⟨rest, hsteps, hrest⟩ := endsIn_installFunction h
  rw [hsteps]
  exact hrest.function (by repeat' constructor)

theorem endsIn_deleteFunction :
    ∃ rest, deleteFunction = code [
        "/**",
        " * Remove every trigger that runs this workflow.",
        " */",
        "function deleteTriggers() \x7b"] ++ ([.deeper] ++ rest) ∧
      EndsIn (fun closers => ⟨.code, closers⟩) rest [] := by
  unfold deleteFunction
  simp only [List.append_assoc]
  refine ⟨_, rfl, _, rfl, fun closers => ?_⟩
  simp only [code, List.map_cons, List.map_nil, String.append_assoc]
  repeat' first
    | with_reducible apply PartsRead.joined
    | with_reducible apply PartsRead.spliced (neutral_quote _).reads
    | with_reducible apply Plain.joined
    | constructor

theorem neutral_deleteFunction : StepsNeutral deleteFunction := by
  intro closers
  obtain ⟨rest, hsteps, hrest⟩ := endsIn_deleteFunction
  rw [hsteps]
  exact hrest.function (by repeat' constructor)

theorem neutral_webhookFunctions : StepsNeutral webhookFunctions := by
  intro closers
  unfold webhookFunctions Entry.functionName
  simp only [code, List.map_cons, List.map_nil, List.cons_append, List.nil_append,
    String.append_assoc]
  repeat' first
    | with_reducible apply PartsRead.joined
    | with_reducible apply Plain.joined
    | constructor

theorem neutral_header (p : Plan) : StepsNeutral (Installer.header p) := by
  intro closers
  unfold Installer.header
  simp only [code, List.map_cons, List.map_nil]
  repeat' first
    | with_reducible apply stepsRead_comment
    | constructor

theorem neutral_webhook (wanted : Bool) :
    StepsNeutral (if wanted then code [""] ++ webhookFunctions else []) := by
  split
  · exact neutral_blank.append neutral_webhookFunctions
  · exact fun _ => .nil

/-- A tag of a known kind is the tag of the kind. -/
theorem tag_of_ofTag? {tag : String} {k : Kind} (h : Kind.ofTag? tag = some k) : tag = k.tag := by
  have htag : (k.tag == tag) = true := List.find?_some (p := fun k => Kind.tag k == tag) h
  exact (beq_iff_eq.mp htag).symm

theorem isTriggerTag_of_webhook {n : PlannedNode} (h : n.kind? = some .webhookTrigger) :
    isTriggerTag n.tag = true := by
  rw [tag_of_ofTag? h]
  decide

/-- A webhook is a trigger, so it makes no difference where it is looked for. -/
theorem any_webhook (nodes : List PlannedNode) :
    ((nodes.filter fun n => isTriggerTag n.tag).any fun n => n.kind? == some .webhookTrigger) =
      nodes.any fun n => n.kind? == some .webhookTrigger := by
  rw [List.any_filter]
  congr 1
  funext n
  by_cases hkind : n.kind? = some .webhookTrigger
  · rw [isTriggerTag_of_webhook hkind, Bool.true_and]
  · simp [hkind]

/-- Each of these installs the trigger of a node. -/
def Installs (each : List (List Step)) : Prop :=
  ∀ steps ∈ each, ∃ n, (installSteps n).outcome = .ok steps

theorem Installs.neutral {each : List (List Step)} (h : Installs each) :
    ∀ steps ∈ each, StepsNeutral steps := by
  intro steps hsteps
  obtain ⟨n, hn⟩ := h steps hsteps
  exact neutral_installSteps hn

/-- What the file that installs triggers is made from. A plan without a trigger has none. -/
theorem installer_eq_ok {p : Plan} {written : Option String}
    (h : (Installer.text? p).outcome = .ok written) :
    ((p.nodes.any fun n => isTriggerTag n.tag) = false ∧ written = none) ∨
      (p.nodes.any fun n => isTriggerTag n.tag) = true ∧
        ∃ each, Installs each ∧
          written = some (((Sheet.empty 0).takeAll (Installer.header p ++ installFunction each ++
            code [""] ++ deleteFunction ++
            if p.nodes.any fun n => n.kind? == some .webhookTrigger
            then code [""] ++ webhookFunctions else [])).render false ++ "\n") := by
  have hempty : (p.nodes.filter fun n => isTriggerTag n.tag).isEmpty =
      !(p.nodes.any fun n => isTriggerTag n.tag) := by
    rw [Bool.eq_iff_iff]
    simp
  unfold Installer.text? at h
  dsimp only at h
  rw [hempty, any_webhook] at h
  split at h
  · rename_i hnone
    cases h
    exact Or.inl ⟨by simpa using hnone, rfl⟩
  · rename_i hsome
    obtain ⟨each, heach, h⟩ := Traced.bind_eq_ok.mp h
    cases h
    refine Or.inr ⟨by simpa using hsome, each, fun steps hsteps => ?_, rfl⟩
    obtain ⟨n, _, hn⟩ := Traced.mem_forEach heach hsteps
    exact ⟨n, hn⟩

/-- The file that installs triggers is lexically closed. -/
theorem closed_installer {p : Plan} {text : String}
    (h : (Installer.text? p).outcome = .ok (some text)) : Closed text := by
  rcases installer_eq_ok h with ⟨_, hnone⟩ | ⟨_, each, heach, hsome⟩
  · cases hnone
  have hsteps := ((((neutral_header p).append (neutral_installFunction heach.neutral)).append
    neutral_blank).append neutral_deleteFunction).append (neutral_webhook
      (p.nodes.any fun n => n.kind? == some .webhookTrigger))
  rw [Option.some.inj hsome]
  exact ((hsteps []).lines 0).closed

/-! ## Bundles -/

theorem closed_main {g : Graph} {c : Choices} {p : Plan} {started : Moment} {main : String}
    (hplan : (Plan.build g c).outcome = .ok p) (h : (Entry.text p started).outcome = .ok main) :
    Closed main := by
  have hsound := Plan.sound_of_build hplan
  have horder : ∀ n ∈ p.order, IsFunctionName n.functionName :=
    fun n hn => hsound.isFunctionName n (hsound.order_subset n hn)
  exact (mainFile_of_text horder hsound.isFunctionName h).closed

end Lexer

/-- The code files of a plan: the main file, the support files, and the file that installs triggers
where there is one. -/
theorem Compiler.files_eq_ok {k : Compiler} {p : Plan} {files : List BundleFile}
    (h : (k.files p).outcome = .ok files) :
    ∃ main written, (Entry.text p k.started).outcome = .ok main ∧
      (Installer.text? p).outcome = .ok written ∧
      files = [⟨Bundle.mainFile, main, .code, some "Main workflow execution"⟩] ++
        Support.files p.choices ++ written.toList.map fun text =>
          ⟨Installer.fileName, text, .code, some "Trigger setup and webhook handlers"⟩ := by
  obtain ⟨main, hmain, h⟩ := Traced.bind_eq_ok.mp h
  obtain ⟨written, hwritten, h⟩ := Traced.bind_eq_ok.mp h
  rw [Traced.outcome_pure] at h
  exact ⟨main, written, hmain, hwritten, (Except.ok.inj h).symm⟩

/-- The code files of a plan: the main file is there, and it and the file that installs triggers are
lexically closed. -/
theorem Lexer.closed_files {k : Compiler} {g : Graph} {c : Choices} {p : Plan}
    {files : List BundleFile} (hplan : (Plan.build g c).outcome = .ok p)
    (h : (k.files p).outcome = .ok files) :
    (∃ f ∈ files, f.name = Bundle.mainFile) ∧
      ∀ f ∈ files, f.name = Bundle.mainFile ∨ f.name = Installer.fileName → Closed f.content := by
  obtain ⟨main, triggers, hmain, htriggers, rfl⟩ := Compiler.files_eq_ok h
  refine ⟨⟨_, List.mem_append_left _ (List.mem_append_left _ (List.mem_singleton.mpr rfl)), rfl⟩, ?_⟩
  intro f hf hname
  rcases List.mem_append.mp hf with hf | hf
  · rcases List.mem_append.mp hf with hf | hf
    · rw [List.mem_singleton.mp hf]
      exact closed_main hplan hmain
    · have hsupport : ∀ x ∈ (Support.files p.choices).map BundleFile.name,
          x ≠ Bundle.mainFile ∧ x ≠ Installer.fileName := by
        show ∀ x ∈ ["RuntimeHelpers.js", "HttpHelpers.js", "StorageHelpers.js"], _
        decide
      obtain ⟨hmainFile, hinstaller⟩ := hsupport f.name (List.mem_map_of_mem hf)
      exact absurd hname (not_or.mpr ⟨hmainFile, hinstaller⟩)
  · obtain ⟨text, htext, rfl⟩ := List.mem_map.mp hf
    exact closed_installer (htriggers.trans (by rw [Option.mem_toList.mp htext]))

namespace Compiler

/-- Of the work the result keeps the bundle as it is, and of a fault what is reported of it. -/
theorem result_report (k : Compiler) (work : Traced Bundle) :
    (k.report work).result = work.outcome.mapError Fault.report := by
  unfold report
  cases work.outcome with
  | ok b => rfl
  | error f => rfl

theorem report_eq_ok {k : Compiler} {work : Traced Bundle} {b : Bundle}
    (h : (k.report work).result = .ok b) : work.outcome = .ok b := by
  rw [result_report] at h
  exact except_mapError_eq_ok.mp h

/-- What a bundle is made from: a verdict that lets the graph through, and a plan of it. -/
structure Made (k : Compiler) (g : Graph) (o : Options) (j : Judgement) (verdict : Verdict)
    (p : Plan) (b : Bundle) : Prop where
  judged : (k.judge g j).outcome = .ok verdict
  valid : verdict.valid = true
  planned : (Plan.build g (o.withDefaults k.settings)).outcome = .ok p
  written : (k.files p).outcome = .ok b.files
  granted : (Manifest.build k.settings (some (o.withDefaults k.settings).timezone)
    (scopes verdict (o.withDefaults k.settings))).outcome = .ok (b.manifest, b.requiredScopes)
  guided : (Guide.build p b.files).outcome = .ok b.instructions

theorem bundle_eq_ok {k : Compiler} {g : Graph} {o : Options} {j : Judgement} {b : Bundle}
    (h : (k.bundle g o j).outcome = .ok b) : ∃ verdict p, Made k g o j verdict p b := by
  obtain ⟨verdict, hverdict, h⟩ := Traced.bind_eq_ok.mp h
  split at h
  · cases h
  rename_i hvalid
  obtain ⟨p, hplan, h⟩ := Traced.bind_eq_ok.mp h
  rw [Traced.outcome_note_bind] at h
  obtain ⟨files, hfiles, h⟩ := Traced.bind_eq_ok.mp h
  obtain ⟨⟨manifest, scopes⟩, hmanifest, h⟩ := Traced.bind_eq_ok.mp h
  obtain ⟨instructions, hguide, h⟩ := Traced.bind_eq_ok.mp h
  cases h
  exact ⟨verdict, p, hverdict, by simpa using hvalid, hplan, hfiles, hmanifest, hguide⟩

/-- From what it is made of, a bundle is made. -/
theorem Made.bundled {k : Compiler} {g : Graph} {o : Options} {j : Judgement} {verdict : Verdict}
    {p : Plan} {b : Bundle} (h : Made k g o j verdict p b) : (k.bundle g o j).outcome = .ok b := by
  refine Traced.bind_eq_ok.mpr ⟨verdict, h.judged, ?_⟩
  rw [if_neg (by simp [h.valid])]
  refine Traced.bind_eq_ok.mpr ⟨p, h.planned, ?_⟩
  rw [Traced.outcome_note_bind]
  exact Traced.bind_eq_ok.mpr ⟨b.files, h.written, Traced.bind_eq_ok.mpr ⟨_, h.granted,
    Traced.bind_eq_ok.mpr ⟨b.instructions, h.guided, rfl⟩⟩⟩

theorem Made.compiled {k : Compiler} {g : Graph} {o : Options} {j : Judgement} {verdict : Verdict}
    {p : Plan} {b : Bundle} (h : Made k g o j verdict p b) : (k.compile g o j).result = .ok b := by
  unfold compile
  rw [result_report, h.bundled]
  rfl

theorem Made.main {k : Compiler} {g : Graph} {o : Options} {j : Judgement} {verdict : Verdict}
    {p : Plan} {b : Bundle} (h : Made k g o j verdict p b) :
    ∃ main, (Entry.text p k.started).outcome = .ok main ∧ b.file? Bundle.mainFile =
      some ⟨Bundle.mainFile, main, .code, some "Main workflow execution"⟩ := by
  obtain ⟨main, triggers, hmain, _, hfiles⟩ := files_eq_ok h.written
  refine ⟨main, hmain, ?_⟩
  unfold Bundle.file?
  rw [hfiles]
  rfl

/-- It makes no difference whether a graph and options are given as they are or described by values. -/
theorem compileValues_eq {graph options : Value} {g : Graph} {o : Options}
    (hgraph : Graph.ofValue graph = .ok g) (hoptions : Options.ofValue options = .ok o)
    (k : Compiler) (j : Judgement) : k.compileValues graph options j = k.compile g o j := by
  unfold compileValues compile
  rw [hgraph, hoptions]
  rfl

/-- The compiler makes the bundle of a graph with these options, from the two themselves or from
values that describe them. -/
def Makes (k : Compiler) (g : Graph) (o : Options) (j : Judgement) (b : Bundle) : Prop :=
  (k.compile g o j).result = .ok b ∨
    ∃ graph options, Graph.ofValue graph = .ok g ∧ Options.ofValue options = .ok o ∧
      (k.compileValues graph options j).result = .ok b

theorem Makes.made {k : Compiler} {g : Graph} {o : Options} {j : Judgement} {b : Bundle}
    (h : k.Makes g o j b) : ∃ verdict p, Made k g o j verdict p b := by
  rcases h with h | ⟨graph, options, hgraph, hoptions, h⟩
  · exact bundle_eq_ok (report_eq_ok h)
  · rw [compileValues_eq hgraph hoptions] at h
    exact bundle_eq_ok (report_eq_ok h)

/-- However a bundle is compiled, it has a main file, and the main file and the file that installs
triggers are lexically closed: every string and comment ends, and every bracket that stands in code
is closed by its own closer. -/
theorem every_script_of_a_bundle_is_lexically_closed {k : Compiler} {b : Bundle}
    (h : (∃ g o j, (k.compile g o j).result = .ok b) ∨
      ∃ graph options j, (k.compileValues graph options j).result = .ok b) :
    (∃ f ∈ b.files, f.name = Bundle.mainFile) ∧
      ∀ f ∈ b.files, f.name = Bundle.mainFile ∨ f.name = Installer.fileName →
        Lexer.Closed f.content := by
  have hbundle : ∃ g o j, (k.bundle g o j).outcome = .ok b := by
    rcases h with ⟨g, o, j, h⟩ | ⟨graph, options, j, h⟩
    · exact ⟨g, o, j, report_eq_ok h⟩
    · obtain ⟨g, _, h⟩ := Traced.bind_eq_ok.mp (report_eq_ok h)
      obtain ⟨o, _, h⟩ := Traced.bind_eq_ok.mp h
      exact ⟨g, o, j, h⟩
  obtain ⟨g, o, j, h⟩ := hbundle
  obtain ⟨verdict, p, hmade⟩ := bundle_eq_ok h
  exact Lexer.closed_files hmade.planned hmade.written

/-- Brackets, quotes, line breaks and ends of comments in every place that a user can fill. -/
def bracketed : Graph := ⟨"w", "*/ \x7d", some "\"\n(",
  [⟨"t'\n\x7d", "trigger.webhook", []⟩,
    ⟨"*/(\"", "transform.data_mapper", [("mapping", .object [("'\n", .text "\"\x7d\n")])]⟩],
  [⟨"e", "t'\n\x7d", "*/(\""⟩]⟩

theorem the_scripts_of_a_bracketed_graph_are_closed :
    ∃ b main triggers,
      (compile { started := ⟨2026, 1, 1, 0, 0, 0, 0, none⟩ } bracketed {} .ask).result = .ok b ∧
      b.file? "Code.js" = some main ∧ b.file? "Triggers.js" = some triggers ∧
      Lexer.Closed main.content ∧ Lexer.Closed triggers.content := by
  have hrun : ∃ b main triggers,
      (compile { started := ⟨2026, 1, 1, 0, 0, 0, 0, none⟩ } bracketed {} .ask).result = .ok b ∧
      b.file? "Code.js" = some main ∧ b.file? "Triggers.js" = some triggers :=
    ⟨_, _, _, rfl, rfl, rfl⟩
  obtain ⟨b, main, triggers, hcompiled, hmain, htriggers⟩ := hrun
  have hclosed := (every_script_of_a_bundle_is_lexically_closed (Or.inl ⟨_, _, _, hcompiled⟩)).2
  refine ⟨b, main, triggers, hcompiled, hmain, htriggers, ?_, ?_⟩
  · have hname := List.find?_some hmain
    exact hclosed main (List.mem_of_find?_eq_some hmain) (Or.inl (beq_iff_eq.mp hname))
  · have hname := List.find?_some htriggers
    exact hclosed triggers (List.mem_of_find?_eq_some htriggers) (Or.inr (beq_iff_eq.mp hname))

end Compiler

end Flowscript
