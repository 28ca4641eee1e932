-- What a clock says of itself and what is installed for it. The function of
-- the node writes a schedule and a time zone into its result; the file that
-- installs triggers picks the schedule by a rule of its own, and so does the
-- manifest with the time zone. The rules part where a setting is there but
-- counts as nothing.
import Flowscript.Proofs.Installing
import Flowscript.Proofs.Locality
import Flowscript.Proofs.Statements
import Flowscript.Proofs.Triggers
import Flowscript.Proofs.Verbatim

namespace Flowscript

open Installer (clockSteps installFunction installSteps isTriggerTag scheduleOf)
open Lexer (Installs stepLines)
open Recipe (code reportedSchedule reportedZone)

/-! ## Schedules -/

theorem Value.orElse_of_isTruthy {v : Value} (h : v.isTruthy = true) (other : Value) :
    v.orElse other = v := if_pos h

theorem Value.orElse_of_not {v : Value} (h : v.isTruthy = false) (other : Value) :
    v.orElse other = other := if_neg (by rw [h]; exact Bool.false_ne_true)

theorem Value.isTruthy_orElse {v other : Value} (h : other.isTruthy = true) :
    (v.orElse other).isTruthy = true := by
  by_cases hv : v.isTruthy = true
  · rw [orElse_of_isTruthy hv, hv]
  · rw [orElse_of_not (Bool.eq_false_iff.mpr hv), h]

/-- A schedule is always installed. -/
theorem isTruthy_scheduleOf (config : Fields) : (scheduleOf config).isTruthy = true :=
  Value.isTruthy_orElse (Value.isTruthy_orElse rfl)

/-- A setting that is absent counts as nothing. -/
theorem isTruthy_of_absent {config : Fields} {key : String} (h : Config.get? config key = none) :
    ((config.get? key).getD .null).isTruthy = false := by
  unfold Config.get? at h
  split at h
  · next hnone => rw [hnone]; rfl
  · next hnull => rw [hnull]; rfl
  · next hempty => rw [hempty]; rfl
  · cases h

/-- Of a setting that counts, both rules take the value, and of one that is absent both take the
default. -/
theorem orElse_eq_getD {config : Fields} {key : String} {d : Value}
    (h : (Config.getD config key d).isTruthy = true) :
    ((config.get? key).getD .null).orElse d = Config.getD config key d := by
  cases hkey : Config.get? config key with
  | none =>
    rw [Value.orElse_of_not (isTruthy_of_absent hkey), Config.getD, hkey]
    rfl
  | some v =>
    rw [Config.getD, hkey] at h ⊢
    rw [Config.get?_eq_some hkey]
    exact Value.orElse_of_isTruthy h d

/-- The schedule that is reported is the one that is installed, unless what is reported counts as
nothing. -/
theorem reportedSchedule_eq_iff (config : Fields) :
    reportedSchedule config = scheduleOf config ↔ (reportedSchedule config).isTruthy = true := by
  constructor
  · intro h
    rw [h]
    exact isTruthy_scheduleOf config
  · intro h
    unfold scheduleOf
    cases hschedule : Config.get? config "schedule" with
    | some v =>
      rw [reportedSchedule, Config.getD, hschedule] at h ⊢
      rw [Config.get?_eq_some hschedule]
      exact (Value.orElse_of_isTruthy h _).symm
    | none =>
      have hcron : reportedSchedule config = Config.getText config "cron" "@daily" := by
        rw [reportedSchedule, Config.getD, hschedule]
        rfl
      rw [hcron] at h ⊢
      rw [Value.orElse_of_not (isTruthy_of_absent hschedule)]
      exact (orElse_eq_getD h).symm

/-! ## The function of a clock -/

/-- The body has a line for a field with that name, no other line like it and no slots. -/
theorem statements_field {c : Char} {cs : List Char} (hc : Text.isBlank c = false) {name : String}
    (hname : name ++ ": " = String.ofList (c :: cs)) {steps : List Step} {v : Value} (i : Nat)
    (hline : steps.drop i = .line [.text name, .text ": ", .expr (.literal v), .text ","] ::
      steps.drop (i + 1))
    (hfront : slots (steps.take i) = []) (hback : slots (steps.drop (i + 1)) = [])
    (hbefore : ∀ s ∈ shapes (steps.take i), skips (c :: cs) (spelledHead (spell s)) = true)
    (hbehind : ∀ s ∈ shapes (steps.drop (i + 1)), skips (c :: cs) (spelledHead (spell s)) = true)
    (snippet : SlotKind → List String) :
    statements (String.ofList (c :: cs)) (steps.flatMap (stepLines snippet)) =
      [String.ofList (c :: cs) ++ (Json.literal v ++ ",")] := by
  have hcode : lineCode [.text name, .text ": ", .expr (.literal v), .text ","] =
      String.ofList (c :: cs) ++ (Json.literal v ++ ",") := by
    rw [← hname, String.append_assoc, lineCode_cons, lineCode_cons, lineCode_cons]
    rfl
  rw [statements_at i hline hfront (quiet_of_shapes hbefore) (quiet_of_shapes hbehind), hcode,
    statement_hit hc, hback]
  rfl

/-- The function of a clock has one field for the schedule and one for the time zone. -/
theorem statements_of_clock {n : PlannedNode} {c : Choices} {sheet : Sheet}
    (hk : n.kind? = some .timeTrigger) (h : (NodeFunction.build n c).outcome = .ok sheet) :
    statements "schedule: " (sheet.lines false) =
        ["schedule: " ++ (Json.literal (reportedSchedule n.config) ++ ",")] ∧
      statements "timezone: " (sheet.lines false) =
        ["timezone: " ++ (Json.literal (reportedZone n.config c.timezone) ++ ",")] := by
  obtain ⟨body, facts, hcomposed⟩ := composed_of_build h
  have hbody := hcomposed.ofRecipe
  rw [PlannedNode.recipe_of_kind hk] at hbody
  obtain ⟨o, ho, rfl, -⟩ := Recipe.body_eq_ok.mp hbody
  cases ho
  constructor
  · refine (hcomposed.statements_eq _ rfl).trans ?_
    refine statements_field rfl rfl 4 rfl rfl rfl ?_ ?_ _
    · exact Spelled.all (fun s => skips _ (spelledHead s)) (by repeat' constructor) rfl
    · exact Spelled.all (fun s => skips _ (spelledHead s)) (by repeat' constructor) rfl
  · refine (hcomposed.statements_eq _ rfl).trans ?_
    refine statements_field rfl rfl 5 rfl rfl rfl ?_ ?_ _
    · exact Spelled.all (fun s => skips _ (spelledHead s)) (by repeat' constructor) rfl
    · exact Spelled.all (fun s => skips _ (spelledHead s)) (by repeat' constructor) rfl

/-! ## The file that installs triggers -/

theorem leads_lines (i : Int) (lines : List (List Part)) : Leads i (lines.map Step.line) i := by
  induction lines with
  | nil => rfl
  | cons parts rest ih =>
    have hline : Leads i [.line parts] i := rfl
    exact hline.append ih

theorem leads_clockSteps (i : Int) (n : PlannedNode) (found : Schedule) :
    Leads i (clockSteps n found) i := by
  refine Leads.append ?_ (leads_code i _)
  have hlines := leads_lines i ((Installer.clockRemarks n found).map fun text =>
    [.text "// ", .text text])
  rwa [List.map_map] at hlines

theorem leads_pollingSteps {n : PlannedNode} {source : String} {steps : List Step} (i : Int)
    (h : (Installer.pollingSteps n source).outcome = .ok steps) : Leads i steps i := by
  obtain ⟨minutes, _, h⟩ := Traced.bind_eq_ok.mp h
  cases h
  exact leads_lines i [_, _]

/-- A trigger is installed by lines alone. -/
theorem leads_installSteps {n : PlannedNode} {steps : List Step} (i : Int)
    (h : (installSteps n).outcome = .ok steps) : Leads i steps i := by
  by_cases hk : n.kind? = some .timeTrigger
  · obtain ⟨_, found, _, rfl⟩ := (Installer.installSteps_of_time hk).mp h
    exact leads_clockSteps i n found
  unfold installSteps at h
  split at h
  · next hclock => exact absurd hclock hk
  · exact leads_pollingSteps i h
  · exact leads_pollingSteps i h
  · cases h
    exact leads_lines i [_, _]
  · cases h
    exact leads_lines i [_]

theorem leads_each (i : Int) {each : List (List Step)} (h : Installs each) :
    Leads i (each.flatMap fun steps => code [""] ++ steps) i := by
  induction each with
  | nil => rfl
  | cons steps rest ih =>
    obtain ⟨n, hn⟩ := h steps (List.mem_cons_self ..)
    have hrest := ih fun steps hsteps => h steps (List.mem_cons_of_mem _ hsteps)
    exact ((leads_code i [""]).append (leads_installSteps i hn)).append hrest

/-- The steps for one trigger stand one level deep in the function that installs all of them. -/
theorem varies_installer (p : Plan) {before : List (List Step)} (h : Installs before)
    (after : List (List Step)) (rest : List Step) :
    Varies 0 (fun steps => Installer.header p ++ installFunction (before ++ steps :: after) ++ rest) 1
      (fun steps => steps) := by
  unfold Installer.header installFunction
  simp only [List.flatMap_append, List.flatMap_cons, List.append_assoc]
  refine .behind (leads_code 0 _) ?_
  refine .behind (leads_code 0 _) ?_
  refine .behind (k := 1) rfl ?_
  refine .behind (leads_code 1 _) ?_
  refine .behind (leads_each 1 h) ?_
  refine .behind (leads_code 1 _) ?_
  exact .here 1 (fun steps => steps) _

theorem linesAt_header_ne_nil (p : Plan) (rest : List Step) :
    linesAt 0 (Installer.header p ++ rest) ≠ [] := by
  have hsplit := linesAt_append (leads_code 0 ["/**"]) ((Installer.header p).tail ++ rest)
  have hopen : linesAt 0 (code ["/**"]) = ["/**"] := rfl
  rw [hopen] at hsplit
  exact hsplit.trans_ne (List.cons_ne_nil _ _)

/-- The file is made from the steps of all triggers, of which one has those of the node. -/
theorem installer_around {p : Plan} {text : String}
    (h : (Installer.text? p).outcome = .ok (some text)) {n : PlannedNode} (hn : n ∈ p.nodes)
    (htag : isTriggerTag n.tag = true) :
    ∃ before steps after rest, Installs (before ++ steps :: after) ∧
      (installSteps n).outcome = .ok steps ∧ Lexer.StepsNeutral rest ∧
      text = ((Sheet.empty 0).takeAll (Installer.header p ++
        installFunction (before ++ steps :: after) ++ rest)).render false ++ "\n" := by
  have hmem : n ∈ p.nodes.filter fun n => isTriggerTag n.tag := List.mem_filter.mpr ⟨hn, htag⟩
  have hsome : ¬ (p.nodes.filter fun n => isTriggerTag n.tag).isEmpty = true := by
    rw [List.isEmpty_iff]
    exact List.ne_nil_of_mem hmem
  unfold Installer.text? at h
  dsimp only at h
  rw [if_neg hsome] at h
  obtain ⟨each, heach, h⟩ := Traced.bind_eq_ok.mp h
  have hall : Installs each := fun steps hsteps => by
    obtain ⟨m, _, hm⟩ := Traced.mem_forEach heach hsteps
    exact ⟨m, hm⟩
  obtain ⟨steps, hsteps, hinstalled⟩ := Traced.exists_of_forEach heach hmem
  obtain ⟨before, after, rfl⟩ := List.append_of_mem hsteps
  have hrest := (Lexer.neutral_blank.append Lexer.neutral_deleteFunction).append
    (Lexer.neutral_webhook ((p.nodes.filter fun n => isTriggerTag n.tag).any
      fun n => n.kind? == some .webhookTrigger))
  rw [Traced.outcome_pure, Except.ok.injEq, Option.some_inj] at h
  refine ⟨before, steps, after, _, hall, hinstalled, hrest, ?_⟩
  rw [← h]
  simp only [List.append_assoc]

/-- The lines that install the trigger of a node stand together in the file. -/
theorem installed_of_text {p : Plan} {text : String}
    (h : (Installer.text? p).outcome = .ok (some text)) {n : PlannedNode} (hn : n ∈ p.nodes)
    (htag : isTriggerTag n.tag = true) :
    ∃ steps, (installSteps n).outcome = .ok steps ∧ linesAt 1 steps <:+: Text.lines text := by
  obtain ⟨before, steps, after, rest, hall, hinstalled, hrest, rfl⟩ := installer_around h hn htag
  refine ⟨steps, hinstalled, ?_⟩
  have hneutral := ((Lexer.neutral_header p).append
    (Lexer.neutral_installFunction hall.neutral)).append hrest
  have hne := linesAt_header_ne_nil p (installFunction (before ++ steps :: after) ++ rest)
  rw [← List.append_assoc] at hne
  rw [Sheet.render, ← linesAt, Text.lines_joinLines_feed hne ((hneutral []).lines 0).unbroken]
  have hbefore : Installs before := fun steps hsteps => hall steps (List.mem_append_left _ hsteps)
  obtain ⟨front, back, hlevel, hwhole⟩ := varies_installer p hbefore after rest
  have hwhole : Installer.header p ++ installFunction (before ++ steps :: after) ++ rest =
      front ++ (steps ++ back) := hwhole steps
  rw [hwhole, linesAt_append hlevel, linesAt_append (leads_installSteps 1 hinstalled),
    ← List.append_assoc]
  exact ⟨_, _, rfl⟩

/-- The lines of the file that install a clock. -/
def clockLines (n : PlannedNode) (found : Schedule) : List String := linesAt 1 (clockSteps n found)

theorem isTriggerTag_of_clock {n : PlannedNode} (h : n.kind? = some .timeTrigger) :
    isTriggerTag n.tag = true := by
  rw [Lexer.tag_of_ofTag? h]
  decide

theorem clock_of_text {p : Plan} {text : String}
    (h : (Installer.text? p).outcome = .ok (some text)) {n : PlannedNode} (hn : n ∈ p.nodes)
    (hk : n.kind? = some .timeTrigger) :
    ∃ found, (Schedule.ofText (scheduleOf n.config).plain).outcome = .ok found ∧
      clockLines n found <:+: Text.lines text := by
  obtain ⟨steps, hsteps, hlines⟩ := installed_of_text h hn (isTriggerTag_of_clock hk)
  obtain ⟨_, found, hfound, rfl⟩ := (Installer.installSteps_of_time hk).mp hsteps
  exact ⟨found, hfound, hlines⟩

/-! ## Bundles -/

/-- The time zone of the manifest. -/
def Bundle.zone? (b : Bundle) : Option Value :=
  match b.manifest with
  | .object fields => Fields.get? fields "timeZone"
  | _ => none

namespace Compiler

variable {k : Compiler} {g : Graph} {o : Options} {j : Judgement} {verdict : Verdict} {p : Plan}
  {b : Bundle}

/-- The manifest takes the time zone of the settings where the options have an empty one. -/
theorem Made.zone (h : Made k g o j verdict p b) :
    b.zone? = some (.text (if (o.withDefaults k.settings).timezone = "" then k.settings.timezone
      else (o.withDefaults k.settings).timezone)) := by
  obtain ⟨keys, _, hgranted⟩ := Traced.bind_eq_ok.mp h.granted
  rw [Traced.outcome_note_bind] at hgranted
  obtain ⟨hmanifest, _⟩ := Prod.mk.inj (Except.ok.inj hgranted)
  unfold Bundle.zone?
  rw [← hmanifest]
  rfl

/-- The time zones of the manifest and of the choices differ where the options ask for an empty
one. -/
theorem Made.zone_eq_iff (h : Made k g o j verdict p b) :
    b.zone? = some (.text (o.withDefaults k.settings).timezone) ↔
      ¬ (o.timezone = some "" ∧ k.settings.timezone ≠ "") := by
  rw [h.zone, Option.some_inj, Value.text.injEq]
  unfold Options.withDefaults
  dsimp only
  cases hzone : o.timezone with
  | none => simp
  | some zone =>
    rw [Option.getD_some, Option.some_inj]
    by_cases hempty : zone = ""
    · rw [if_pos hempty, hempty]
      simp
    · simp [hempty]

/-- What a bundle says of a clock: its function, which stands in the main file, reports a schedule and
a time zone, and the file that installs triggers has the lines for what the schedule was read as. -/
structure TellsClock (p : Plan) (b : Bundle) (n : PlannedNode) (main triggers : BundleFile)
    (sheet : Sheet) (found : Schedule) : Prop where
  main_mem : b.file? Bundle.mainFile = some main
  built : (NodeFunction.build n p.choices).outcome = .ok sheet
  written : sheet.lines false <:+: Text.lines main.content
  schedule : statements "schedule: " (sheet.lines false) =
    ["schedule: " ++ (Json.literal (reportedSchedule n.config) ++ ",")]
  timezone : statements "timezone: " (sheet.lines false) =
    ["timezone: " ++ (Json.literal (reportedZone n.config p.choices.timezone) ++ ",")]
  triggers_mem : triggers ∈ b.files
  triggers_name : triggers.name = Installer.fileName
  read : (Schedule.ofText (scheduleOf n.config).plain).outcome = .ok found
  installed : clockLines n found <:+: Text.lines triggers.content

theorem Made.tellsClock (h : Made k g o j verdict p b) {n : PlannedNode} (hn : n ∈ p.nodes)
    (hk : n.kind? = some .timeTrigger) :
    ∃ main triggers sheet found, TellsClock p b n main triggers sheet found := by
  obtain ⟨main, hmain, hfile⟩ := h.main
  have hsound := Plan.sound_of_build h.planned
  obtain ⟨sheet, hbuilt, hwritten⟩ := Lexer.function_lines_of_text
    (fun m hm => hsound.isFunctionName m (hsound.order_subset m hm)) hsound.isFunctionName hmain hn
  obtain ⟨hschedule, htimezone⟩ := statements_of_clock hk hbuilt
  have htrigger : (p.nodes.any fun n => isTriggerTag n.tag) = true :=
    List.any_eq_true.mpr ⟨n, hn, isTriggerTag_of_clock hk⟩
  obtain ⟨triggers, hmem, hname⟩ := (exists_installer_iff h.written).mpr htrigger
  obtain ⟨found, hread, hinstalled⟩ := clock_of_text (installer_of_mem h.written hmem hname) hn hk
  exact ⟨_, triggers, sheet, found, hfile, hbuilt, hwritten, hschedule, htimezone, hmem, hname,
    hread, hinstalled⟩

/-- However a graph is compiled, the function of every clock reports one schedule and one time zone,
and its schedule is installed. The reported schedule is the one that is installed just where it counts
as something: what the settings hold as false, as zero or as an empty list or object is reported, but
passed over where triggers are installed. The time zone of a clock without one of its own is that of the
manifest, unless the options ask for an empty one. -/
theorem a_clock_reports_what_is_installed_unless_it_counts_as_nothing (h : k.Makes g o j b) :
    ∃ p, (Plan.build g (o.withDefaults k.settings)).outcome = .ok p ∧
      ∀ n ∈ p.nodes, n.kind? = some .timeTrigger →
        (∃ main triggers sheet found, TellsClock p b n main triggers sheet found) ∧
        (reportedSchedule n.config = scheduleOf n.config ↔
          (reportedSchedule n.config).isTruthy = true) ∧
        (Config.get? n.config "timezone" = none →
          (b.zone? = some (reportedZone n.config p.choices.timezone) ↔
            ¬ (o.timezone = some "" ∧ k.settings.timezone ≠ ""))) := by
  obtain ⟨verdict, p, hmade⟩ := h.made
  refine ⟨p, hmade.planned, fun n hn hk => ⟨hmade.tellsClock hn hk, reportedSchedule_eq_iff _,
    fun hzone => ?_⟩⟩
  rw [← hmade.zone_eq_iff, reportedZone, Config.getText, Config.getD, hzone,
    (Plan.graph_of_build hmade.planned).2]
  rfl

/-- A workflow with one clock. -/
def clockwork (config : Fields) : Graph :=
  ⟨"w", "Clock", none, [⟨"t", "trigger.time.cron", config⟩], []⟩

/-- Its plan, where nothing is left to resolve in its settings. -/
def clockPlan (o : Options) (config : Fields) : Plan :=
  let nodes := [⟨"t", "trigger.time.cron", "execute_t", config⟩]
  ⟨clockwork config, o.withDefaults {}, nodes, nodes⟩

theorem a_clock_by_the_hour_reports_its_schedule :
    ∃ b p n main triggers sheet found,
      (compile { started := ⟨2026, 1, 1, 0, 0, 0, 0, none⟩ } (clockwork [("cron", .text "@hourly")])
        {} .ask).result = .ok b ∧
      n ∈ p.nodes ∧ TellsClock p b n main triggers sheet found ∧
      statements "schedule: " (sheet.lines false) = ["schedule: \"@hourly\","] ∧
      reportedSchedule n.config = scheduleOf n.config ∧
      statements "timezone: " (sheet.lines false) = ["timezone: \"America/New_York\","] ∧
      b.zone? = some (reportedZone n.config p.choices.timezone) := by
  obtain ⟨verdict, b, hmade⟩ : ∃ verdict b, Made { started := ⟨2026, 1, 1, 0, 0, 0, 0, none⟩ }
      (clockwork [("cron", .text "@hourly")]) {} .ask verdict
      (clockPlan {} [("cron", .text "@hourly")]) b := by
    obtain ⟨files, hfiles⟩ : ∃ files, (Compiler.files { started := ⟨2026, 1, 1, 0, 0, 0, 0, none⟩ }
        (clockPlan {} [("cron", .text "@hourly")])).outcome = .ok files := ⟨_, rfl⟩
    obtain ⟨guide, hguide⟩ : ∃ guide, (Guide.build (clockPlan {} [("cron", .text "@hourly")])
        files).outcome = .ok guide := ⟨_, rfl⟩
    exact ⟨_, ⟨files, _, _, guide⟩, rfl, rfl, rfl, hfiles, rfl, hguide⟩
  have hcompiled := hmade.compiled
  obtain ⟨p', hplan', hclock⟩ :=
    a_clock_reports_what_is_installed_unless_it_counts_as_nothing (Or.inl hcompiled)
  cases hmade.planned.symm.trans hplan'
  obtain ⟨⟨main, triggers, sheet, found, htells⟩, hschedule, htimezone⟩ := hclock _ (.head _) rfl
  refine ⟨b, _, _, main, triggers, sheet, found, hcompiled, .head _, htells, htells.schedule,
    hschedule.mpr rfl, htells.timezone, (htimezone rfl).mpr (by simp)⟩

/-- The function reports a schedule of zero and an empty time zone. Installed is the schedule by the
hour, and the manifest has the time zone of the settings. -/
theorem a_clock_set_to_zero_reports_another_schedule :
    ∃ b p n main triggers sheet found,
      (compile { started := ⟨2026, 1, 1, 0, 0, 0, 0, none⟩ }
        (clockwork [("schedule", .int 0), ("cron", .text "@hourly")]) { timezone := some "" }
        .ask).result = .ok b ∧
      n ∈ p.nodes ∧ TellsClock p b n main triggers sheet found ∧
      statements "schedule: " (sheet.lines false) = ["schedule: 0,"] ∧
      clockLines n found = ["  // t: time trigger (@hourly)",
        "  ScriptApp.newTrigger(\"executeWorkflow\").timeBased().everyHours(1).create();"] ∧
      statements "timezone: " (sheet.lines false) = ["timezone: \"\","] ∧
      b.zone? = some (.text "America/New_York") := by
  obtain ⟨verdict, b, hmade⟩ : ∃ verdict b, Made { started := ⟨2026, 1, 1, 0, 0, 0, 0, none⟩ }
      (clockwork [("schedule", .int 0), ("cron", .text "@hourly")]) { timezone := some "" } .ask
      verdict
      (clockPlan { timezone := some "" } [("schedule", .int 0), ("cron", .text "@hourly")]) b := by
    obtain ⟨files, hfiles⟩ : ∃ files, (Compiler.files { started := ⟨2026, 1, 1, 0, 0, 0, 0, none⟩ }
        (clockPlan { timezone := some "" }
          [("schedule", .int 0), ("cron", .text "@hourly")])).outcome = .ok files := ⟨_, rfl⟩
    obtain ⟨guide, hguide⟩ : ∃ guide, (Guide.build (clockPlan { timezone := some "" }
        [("schedule", .int 0), ("cron", .text "@hourly")]) files).outcome = .ok guide := ⟨_, rfl⟩
    exact ⟨_, ⟨files, _, _, guide⟩, rfl, rfl, rfl, hfiles, rfl, hguide⟩
  obtain ⟨main, triggers, sheet, found, htells⟩ := hmade.tellsClock (.head _) rfl
  have hread : (Schedule.ofText "@hourly").outcome = .ok found := htells.read
  cases hread
  exact ⟨b, _, _, main, triggers, sheet, _, hmade.compiled, .head _, htells, htells.schedule, rfl,
    htells.timezone, hmade.zone⟩

end Compiler

end Flowscript
