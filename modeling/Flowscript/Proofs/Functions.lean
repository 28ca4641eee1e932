-- The function of a node as the lexer sees it: the snippets that fill its
-- slots leave the lexer as it was, and the only landmark of the function is
-- its own declaration, which stands at the left edge.
import Flowscript.Proofs.Bodies
import Flowscript.Proofs.Planning
import Flowscript.Script.NodeFunction

namespace Flowscript.Recipe

/-- The facts of a trigger that polls are found where its time to live is a number. -/
theorem pollingFacts_eq_ok {source : String} {n : PlannedNode} {c : Choices} {f : Facts}
    (h : pollingFacts source n c = .ok f) :
    ∃ hours, (Config.getD n.config "dedupTtlHours" (.int 24)).toReal = .ok hours ∧ f =
      { slug := .text source, rateLimiting := c.includeRateLimiting,
        dedupKey := .text (source ++ ":" ++ n.id), ttlHours := .real hours } := by
  unfold pollingFacts at h
  dsimp only at h
  split at h
  · next hours hhours =>
    cases h
    exact ⟨hours, hhours, rfl⟩
  · cases h
  · rw [Config.refuse_eq] at h
    cases h

/-- The facts of a node that calls a service come from its settings, with limits that are whole
numbers. -/
theorem serviceFacts_eq_ok {s : Service} {n : PlannedNode} {c : Choices} {f : Facts}
    (h : serviceFacts s n c = .ok f) :
    ∃ requests window : Int, f =
      { slug := .text (Config.getText n.config "connector" s.slug).plain
        connectorName := (Config.getText n.config "connectorName"
          (if (Config.getText n.config "connector" s.slug).plain = s.slug then s.name
            else (Config.getText n.config "connector" s.slug).plain)).plain
        authType := Config.getD n.config "authType" s.scheme
        apiKeyHeader := .text (Config.getText n.config "apiKeyHeader" "X-API-Key").plain
        tokenProperty := Config.getD n.config "tokenProperty" .null
        apiKeyProperty := Config.getD n.config "apiKeyProperty" .null
        usernameProperty := Config.getD n.config "usernameProperty" .null
        passwordProperty := Config.getD n.config "passwordProperty" .null
        accessTokenProperty := Config.getD n.config "accessTokenProperty" .null
        rateLimiting := c.includeRateLimiting
        requestsPerMinute := .int requests
        windowMs := .int window } := by
  obtain ⟨slug, hslug, h⟩ := except_bind_eq_ok.mp h
  obtain ⟨name, hname, h⟩ := except_bind_eq_ok.mp h
  obtain ⟨header, hheader, h⟩ := except_bind_eq_ok.mp h
  obtain ⟨ownRequests, _, h⟩ := except_bind_eq_ok.mp h
  obtain ⟨requests, _, h⟩ := except_bind_eq_ok.mp h
  obtain ⟨window, _, h⟩ := except_bind_eq_ok.mp h
  obtain ⟨_, rfl⟩ := Value.print_eq_ok.mp hslug
  obtain ⟨_, rfl⟩ := Value.print_eq_ok.mp hname
  obtain ⟨_, rfl⟩ := Value.print_eq_ok.mp hheader
  cases h
  exact ⟨requests, window, rfl⟩

/-- The limits of a service are whole numbers that the settings give. -/
theorem limits_of_serviceFacts {s : Service} {n : PlannedNode} {c : Choices} {f : Facts}
    (h : serviceFacts s n c = .ok f) :
    ∃ name own requests window,
      Config.whole n.id n.config "requestsPerMinute" 60 = .ok own ∧
      Config.whole n.id (rateLimits n.config) "requestsPerMinute" own = .ok requests ∧
      Config.whole n.id (rateLimits n.config) "windowMs" 60000 = .ok window ∧
      f.slug = .text name ∧ f.requestsPerMinute = .int requests ∧ f.windowMs = .int window := by
  obtain ⟨_, _, h⟩ := except_bind_eq_ok.mp h
  obtain ⟨_, _, h⟩ := except_bind_eq_ok.mp h
  obtain ⟨_, _, h⟩ := except_bind_eq_ok.mp h
  obtain ⟨own, hown, h⟩ := except_bind_eq_ok.mp h
  obtain ⟨requests, hrequests, h⟩ := except_bind_eq_ok.mp h
  obtain ⟨window, hwindow, h⟩ := except_bind_eq_ok.mp h
  cases h
  exact ⟨_, own, requests, window, hown, hrequests, hwindow, rfl, rfl, rfl⟩

/-- The facts of a node are those of a trigger that polls or of a node that calls a service, or they
tell nothing but whether the rate limit is kept. -/
theorem facts_cases {n : PlannedNode} {c : Choices} {f : Facts} (h : n.recipe.facts n c = .ok f) :
    (∃ source, pollingFacts source n c = .ok f) ∨ (∃ s, serviceFacts s n c = .ok f) ∨
      f = { rateLimiting := c.includeRateLimiting } := by
  unfold PlannedNode.recipe ofTag at h
  split at h
  · rename_i k _
    cases k with
    | gmailTrigger | sheetsTrigger => exact Or.inl ⟨_, h⟩
    | httpRequest | slackPost => exact Or.inr (Or.inl ⟨_, h⟩)
    | _ => exact Or.inr (Or.inr (Except.ok.inj h).symm)
  · exact Or.inr (Or.inr (Except.ok.inj h).symm)

end Flowscript.Recipe

namespace Flowscript.Snippet

/-- The code that adds credentials is that of the scheme which the facts mean, or there is none. -/
theorem authLines_eq_ok {f : Facts} {lines : List String} (h : (authLines f).outcome = .ok lines) :
    (Scheme.ofValue? f.authType = none ∧ lines = []) ∨
      ∃ scheme names, Scheme.ofValue? f.authType = some scheme ∧
        f.propertiesOf scheme = .ok names ∧
        lines = schemeLines f (names.map readProperty) scheme := by
  unfold authLines at h
  unfold Scheme.ofValue?
  split at h
  · rename_i hname
    cases h
    rw [hname]
    exact Or.inl ⟨rfl, rfl⟩
  · rename_i name hname
    rw [hname, Option.bind_some]
    split at h
    · rename_i scheme hscheme
      obtain ⟨names, hnames, h⟩ := Traced.bind_eq_ok.mp h
      cases h
      exact Or.inr ⟨scheme, names, hscheme, hnames, rfl⟩
    · rename_i hscheme
      cases h
      exact Or.inl ⟨hscheme, rfl⟩

/-- The rate limiter is asked with two whole numbers, where rate limiting is on. -/
theorem rateLimitLines_eq_ok {f : Facts} {lines : List String} (h : rateLimitLines f = .ok lines) :
    (f.rateLimiting = false ∧ lines = []) ∨
      ∃ requests window : Int, f.rateLimiting = true ∧
        f.requestsPerMinute.toWhole = .ok requests ∧ f.windowMs.toWhole = .ok window ∧
        lines = limitCode (Json.literal f.slug) (toString requests) (toString window) := by
  unfold rateLimitLines at h
  split at h
  · rename_i hon
    split at h
    · obtain ⟨slug, hslug, h⟩ := except_bind_eq_ok.mp h
      obtain ⟨requests, hrequests, h⟩ := except_bind_eq_ok.mp h
      obtain ⟨_, hr, h⟩ := except_bind_eq_ok.mp h
      obtain ⟨window, hwindow, h⟩ := except_bind_eq_ok.mp h
      obtain ⟨_, hw, h⟩ := except_bind_eq_ok.mp h
      obtain ⟨_, rfl⟩ := wholeText_eq_ok.mp hr
      obtain ⟨_, rfl⟩ := wholeText_eq_ok.mp hw
      cases hslug
      cases h
      exact Or.inr ⟨requests, window, hon, hrequests, hwindow, rfl⟩
    · cases h
  · rename_i hoff
    cases h
    exact Or.inl ⟨Bool.eq_false_iff.mpr hoff, rfl⟩

/-- What the code for a slot of a kind can be, with the texts that are put into it. -/
inductive IsCode (f : Facts) : SlotKind → List String → Prop where
  | nothing {kind : SlotKind} : IsCode f kind []
  | auth {scheme : Scheme} {names : List Value} (hnames : f.propertiesOf scheme = .ok names) :
      IsCode f .auth (schemeLines f (names.map readProperty) scheme)
  | error : IsCode f .error (errorLines f)
  | rateLimit (requests window : Int) :
      IsCode f .rateLimit (limitCode (Json.literal f.slug) (toString requests) (toString window))
  | dedup {hours stem : String} (hhours : hoursCode f.ttlHours = .ok hours) :
      IsCode f .dedup (dedupCode f.itemsVar hours stem)

theorem isCode_of_lines {kind : SlotKind} {f : Facts} {ls : List String}
    (h : (lines kind f).outcome = .ok ls) : IsCode f kind ls := by
  cases kind with
  | auth =>
    rcases authLines_eq_ok (authLines_of_lines h) with ⟨_, rfl⟩ | ⟨scheme, names, _, hnames, rfl⟩
    · exact .nothing
    · exact .auth hnames
  | error =>
    cases h
    exact .error
  | rateLimit =>
    rcases rateLimitLines_eq_ok (except_mapError_eq_ok.mp h) with
      ⟨_, rfl⟩ | ⟨requests, window, _, _, _, rfl⟩
    · exact .nothing
    · exact .rateLimit requests window
  | dedup =>
    obtain ⟨hours, hhours, h⟩ := except_bind_eq_ok.mp h
    obtain ⟨stem, _, h⟩ := except_bind_eq_ok.mp h
    cases h
    exact .dedup (except_mapError_eq_ok.mp hhours)

/-- The indent of a line in a scheme's code belongs to the name behind it. -/
theorem indent_options (x : String) : "  " ++ ("options" ++ x) = "  options" ++ x := by
  rw [← String.append_assoc]
  rfl

end Flowscript.Snippet

namespace Flowscript.Lexer

open Recipe (code)
open Text (noBreaks)

/-! ## Snippets -/

/-- The facts name the variables that the bodies of recipes use, and their time to live is a number. -/
structure Usual (f : Facts) : Prop where
  optionsVar : f.optionsVar = "options"
  responseVar : f.responseVar = "response"
  itemsVar : f.itemsVar = "items"
  ttlHours : (∃ k, f.ttlHours = .int k) ∨ ∃ x, f.ttlHours = .real x

/-- The facts of every recipe are usual. -/
theorem usual_of_facts {n : PlannedNode} {c : Choices} {f : Facts}
    (h : n.recipe.facts n c = .ok f) : Usual f := by
  rcases Recipe.facts_cases h with ⟨source, h⟩ | ⟨s, h⟩ | rfl
  · obtain ⟨hours, _, rfl⟩ := Recipe.pollingFacts_eq_ok h
    exact ⟨rfl, rfl, rfl, Or.inr ⟨_, rfl⟩⟩
  · obtain ⟨requests, window, rfl⟩ := Recipe.serviceFacts_eq_ok h
    exact ⟨rfl, rfl, rfl, Or.inl ⟨24, rfl⟩⟩
  · exact ⟨rfl, rfl, rfl, Or.inl ⟨24, rfl⟩⟩

/-- Whether the rate limit is kept depends on the choices alone. -/
theorem rateLimiting_of_facts {n : PlannedNode} {c : Choices} {f : Facts}
    (h : n.recipe.facts n c = .ok f) : f.rateLimiting = c.includeRateLimiting := by
  rcases Recipe.facts_cases h with ⟨source, h⟩ | ⟨s, h⟩ | rfl
  · obtain ⟨hours, _, rfl⟩ := Recipe.pollingFacts_eq_ok h
    rfl
  · obtain ⟨requests, window, rfl⟩ := Recipe.serviceFacts_eq_ok h
    rfl
  · rfl

theorem neutral_readProperty (name : Value) : Neutral (Snippet.readProperty name) :=
  (neutral_literal name).between (fun _ => rfl) (fun _ => rfl) rfl rfl

theorem neutral_headD {reads : List String} (h : ∀ x ∈ reads, Neutral x) :
    Neutral (reads.headD "") := by
  cases reads with
  | nil => exact neutral_of_inert (by decide)
  | cons x rest => exact h x (by simp)

theorem neutral_schemeLines {f : Facts} (hf : Usual f) {reads : List String}
    (h : ∀ x ∈ reads, Neutral x) (scheme : Scheme) :
    StepsNeutral (code (Snippet.schemeLines f reads scheme)) := by
  have hfirst := neutral_headD h
  have hsecond : Neutral ((reads.drop 1).headD "") :=
    neutral_headD fun x hx => h x (List.mem_of_mem_drop hx)
  have hheader := neutral_literal f.apiKeyHeader
  intro closers
  cases scheme
  all_goals
    simp only [Snippet.schemeLines, Snippet.headersLine, hf.optionsVar, String.append_assoc,
      Snippet.indent_options]
    repeat' first
      | with_reducible apply PartsRead.joined
      | with_reducible apply PartsRead.spliced hfirst.reads
      | with_reducible apply PartsRead.spliced hsecond.reads
      | with_reducible apply PartsRead.spliced hheader.reads
      | with_reducible apply Plain.joined
      | constructor

theorem neutral_errorLines {f : Facts} (hf : Usual f) :
    StepsNeutral (code (Snippet.errorLines f)) := by
  have hname := neutral_quote (f.connectorName ++ " API error (")
  intro closers
  simp only [Snippet.errorLines, hf.responseVar, String.append_assoc] at hname ⊢
  repeat' first
    | with_reducible apply PartsRead.joined
    | with_reducible apply PartsRead.spliced hname.reads
    | with_reducible apply Plain.joined
    | constructor

theorem neutral_limitCode (slug : Value) (requests window : Int) :
    StepsNeutral
      (code (Snippet.limitCode (Json.literal slug) (toString requests) (toString window))) := by
  have hslug := neutral_literal slug
  have hrequests := neutral_of_inert (inert_int requests)
  have hwindow := neutral_of_inert (inert_int window)
  intro closers
  simp only [Snippet.limitCode, String.append_assoc]
  repeat' first
    | with_reducible apply PartsRead.joined
    | with_reducible apply PartsRead.spliced hslug.reads
    | with_reducible apply PartsRead.spliced hrequests.reads
    | with_reducible apply PartsRead.spliced hwindow.reads
    | with_reducible apply Plain.joined
    | constructor

theorem madeOf_hoursCode {p : Char → Bool} (hp : Numerals p) (hinf : MadeOf p "inf")
    (hnan : MadeOf p "nan") {ttl : Value} (httl : (∃ k, ttl = .int k) ∨ ∃ x, ttl = .real x)
    {hours : String} (h : Snippet.hoursCode ttl = .ok hours) : MadeOf p hours := by
  obtain ⟨real, _, h⟩ := except_bind_eq_ok.mp h
  split at h
  · obtain ⟨whole, _, h⟩ := except_bind_eq_ok.mp h
    cases h
    exact madeOf_int hp whole
  · cases h
    rcases httl with ⟨k, rfl⟩ | ⟨x, rfl⟩
    · exact madeOf_int hp k
    · exact madeOf_real hp hinf hnan x

theorem inert_hoursCode {ttl : Value} (httl : (∃ k, ttl = .int k) ∨ ∃ x, ttl = .real x)
    {hours : String} (h : Snippet.hoursCode ttl = .ok hours) : Inert hours :=
  madeOf_hoursCode numerals_isInert (by decide) (by decide) httl h

theorem neutral_dedupCode {hours : String} (h : Inert hours) (stem : String) :
    StepsNeutral (code (Snippet.dedupCode "items" hours stem)) := by
  have hstem := neutral_quote stem
  have hnumber := neutral_of_inert h
  have hremark := @Reads.remark _ h.unbroken
  intro closers
  simp only [Snippet.dedupCode, String.append_assoc]
  repeat' first
    | with_reducible apply PartsRead.joined
    | with_reducible apply PartsRead.spliced hremark
    | with_reducible apply PartsRead.spliced hnumber.reads
    | with_reducible apply PartsRead.spliced hstem.reads
    | with_reducible apply Plain.joined
    | constructor

theorem neutral_snippet {kind : SlotKind} {f : Facts} (hf : Usual f) {lines : List String}
    (h : (Snippet.lines kind f).outcome = .ok lines) : StepsNeutral (code lines) := by
  cases Snippet.isCode_of_lines h with
  | nothing => exact fun _ => .nil
  | auth _ =>
    refine neutral_schemeLines hf (List.forall_mem_map.mpr fun name _ => ?_) _
    exact neutral_readProperty name
  | error => exact neutral_errorLines hf
  | rateLimit requests window => exact neutral_limitCode f.slug requests window
  | dedup hhours =>
    rw [hf.itemsVar]
    exact neutral_dedupCode (inert_hoursCode hf.ttlHours hhours) _

/-! ## Functions -/

/-- The line that declares the function of a node. -/
def declaration (n : PlannedNode) : String := "function " ++ n.functionName ++ "(context) \x7b"

theorem declaration_eq {n : PlannedNode} (h : IsFunctionName n.functionName) :
    ∃ tail, declaration n = "function execute_" ++ tail := by
  obtain ⟨stem, hstem, _⟩ := h
  have hsplit : "function execute_" = "function " ++ "execute_" := rfl
  refine ⟨stem ++ "(context) \x7b", ?_⟩
  rw [declaration, hstem, hsplit]
  simp only [String.append_assoc]

theorem isDeclaration_declaration {n : PlannedNode} (h : IsFunctionName n.functionName) :
    isDeclaration (declaration n) = true := by
  obtain ⟨tail, htail⟩ := declaration_eq h
  rw [htail]
  exact isDeclaration_head tail

theorem landmark_declaration {n : PlannedNode} (h : IsFunctionName n.functionName) :
    Landmark (declaration n) := by
  refine ⟨Bool.or_eq_true_iff.mpr (Or.inr (isDeclaration_declaration h)), ?_⟩
  obtain ⟨tail, htail⟩ := declaration_eq h
  rw [htail]
  exact unindent_of_head rfl _ _

/-- A line of a comment that ends with text made fit for it leaves the lexer inside the comment. -/
theorem stepsRead_comment {closers cs : List Char} {x : String} {rest : List Step}
    {marks : List String} {v : State} (hr : read ⟨.block, closers⟩ cs = some ⟨.block, closers⟩)
    (hb : noBreaks cs = true) (hp : startsPlain cs = true)
    (h : StepsRead ⟨.block, closers⟩ rest marks v) :
    StepsRead ⟨.block, closers⟩ (.line [.text (String.ofList cs ++ Text.remark x)] :: rest) marks v := by
  obtain ⟨mode, hmode, hinside⟩ := (read_partClosers (Text.joinWith " " (Text.words x)).toList closers).1
  have hremark : Reads ⟨.block, closers⟩ (Text.remark x) ⟨mode, closers⟩ :=
    ⟨by rw [Text.remark, String.toList_ofList, hmode], unbroken_remark x⟩
  refine .line rfl (.joined hp) (.joined hr hb (.text hremark .nil)) ?_ h
  rcases hinside with rfl | rfl <;> rfl

theorem stepsRead_opening {n : PlannedNode} (hname : IsFunctionName n.functionName) :
    StepsRead ⟨.code, []⟩ (code (NodeFunction.opening n)) [declaration n] ⟨.code, ['\x7d']⟩ := by
  have hread : Reads ⟨.code, []⟩ (declaration n) ⟨.code, ['\x7d']⟩ :=
    ((Reads.fixed rfl rfl).append (neutral_of_inert hname.inert).reads).append (.fixed rfl rfl)
  have hmark : StepsRead ⟨.code, []⟩ (code [declaration n]) [declaration n] ⟨.code, ['\x7d']⟩ :=
    .mark rfl (landmark_declaration hname) hread rfl .nil
  simp only [NodeFunction.opening, code, List.map_cons, List.map_nil]
  repeat' first
    | exact hmark
    | with_reducible apply stepsRead_comment
    | constructor

theorem itemsRead_draft {n : PlannedNode} {c : Choices} {sheet : Sheet}
    (hname : IsFunctionName n.functionName) (h : (NodeFunction.draft n c).outcome = .ok sheet) :
    ItemsRead ⟨.code, []⟩ sheet.items [declaration n] ⟨.code, []⟩ := by
  obtain ⟨body, hbody, rfl⟩ := NodeFunction.draft_eq_ok h
  have hclose : StepsRead ⟨.code, ['\x7d']⟩ ([.back] ++ code ["\x7d"]) [] ⟨.code, []⟩ := by
    repeat' constructor
  have hsteps := (stepsRead_opening hname).append
    ((StepsRead.deeper .nil).append ((neutral_body hbody ['\x7d']).append hclose))
  obtain ⟨items, hitems, hread⟩ := hsteps.takeAll (Sheet.empty 0)
  simp only [← List.append_assoc] at hitems
  rw [hitems]
  exact hread

theorem itemsRead_intoSheet {s t : State} {marks : List String} {sheet filled : Sheet} {f : Facts}
    {kind : SlotKind} {found : Bool} (hf : Usual f) (hread : ItemsRead s sheet.items marks t)
    (h : (Snippet.intoSheet sheet kind f).outcome = .ok (filled, found)) :
    ItemsRead s filled.items marks t := by
  unfold Snippet.intoSheet at h
  split at h
  · obtain ⟨snippet, hsnippet, h⟩ := Traced.bind_eq_ok.mp h
    cases h
    exact hread.fill (neutral_snippet hf hsnippet)
  · cases h
    exact hread

theorem itemsRead_intoSheetAll {s t : State} {marks : List String} {f : Facts} (hf : Usual f)
    {kinds : List SlotKind} {sheet filled : Sheet} {found : List SlotKind}
    (hread : ItemsRead s sheet.items marks t)
    (h : (Snippet.intoSheetAll sheet f kinds).outcome = .ok (filled, found)) :
    ItemsRead s filled.items marks t := by
  induction kinds generalizing sheet filled found with
  | nil =>
    cases h
    exact hread
  | cons kind rest ih =>
    obtain ⟨⟨next, here⟩, hnext, h⟩ := Traced.bind_eq_ok.mp h
    obtain ⟨⟨last, others⟩, hlast, h⟩ := Traced.bind_eq_ok.mp h
    cases h
    exact ih (itemsRead_intoSheet hf hread hnext) hlast

/-- What a function is built from: the draft, whose slots are filled with the recipe's facts. -/
theorem build_eq_ok {n : PlannedNode} {c : Choices} {filled : Sheet}
    (h : (NodeFunction.build n c).outcome = .ok filled) :
    ∃ sheet facts found, (NodeFunction.draft n c).outcome = .ok sheet ∧
      n.recipe.facts n c = .ok facts ∧
      (Snippet.intoSheetAll sheet facts SlotKind.all).outcome = .ok (filled, found) := by
  obtain ⟨sheet, hsheet, h⟩ := Traced.bind_eq_ok.mp h
  obtain ⟨facts, hfacts, h⟩ := Traced.bind_eq_ok.mp h
  obtain ⟨⟨last, found⟩, hlast, h⟩ := Traced.bind_eq_ok.mp h
  refine ⟨sheet, facts, found, hsheet, hfacts, ?_⟩
  rw [hlast]
  dsimp only at h
  split at h
  · cases h
    rfl
  · cases h
    rfl

/-- The function of a node is lexically closed, and its one landmark is its declaration. -/
theorem linesRead_build {n : PlannedNode} {c : Choices} {filled : Sheet}
    (hname : IsFunctionName n.functionName)
    (h : (NodeFunction.build n c).outcome = .ok filled) :
    LinesRead ⟨.code, []⟩ (filled.lines false) [declaration n] ⟨.code, []⟩ := by
  obtain ⟨sheet, facts, found, hsheet, hfacts, hfilled⟩ := build_eq_ok h
  exact (itemsRead_intoSheetAll (usual_of_facts hfacts) (itemsRead_draft hname hsheet)
    hfilled).lines

/-! ## The declaration stands at the left edge -/

theorem mem_items_takeAll {item : Item} {sheet : Sheet} (steps : List Step)
    (h : item ∈ sheet.items) : item ∈ (sheet.takeAll steps).items := by
  induction steps generalizing sheet with
  | nil => exact h
  | cons st rest ih =>
    apply ih
    cases st with
    | line parts => exact List.mem_append_left _ h
    | slot kind => exact List.mem_append_left _ h
    | deeper => exact h
    | back => exact h

theorem line_mem_intoSheetAll {f : Facts} {kinds : List SlotKind} {indent : Int} {x : String}
    {sheet filled : Sheet} {found : List SlotKind} (hmem : Item.line indent x ∈ sheet.items)
    (h : (Snippet.intoSheetAll sheet f kinds).outcome = .ok (filled, found)) :
    Item.line indent x ∈ filled.items := by
  induction kinds generalizing sheet filled found with
  | nil =>
    cases h
    exact hmem
  | cons kind rest ih =>
    obtain ⟨⟨next, here⟩, hnext, h⟩ := Traced.bind_eq_ok.mp h
    obtain ⟨⟨last, others⟩, hlast, h⟩ := Traced.bind_eq_ok.mp h
    cases h
    refine ih ?_ hlast
    unfold Snippet.intoSheet at hnext
    split at hnext
    · obtain ⟨snippet, _, hnext⟩ := Traced.bind_eq_ok.mp hnext
      cases hnext
      exact List.mem_flatMap.mpr ⟨_, hmem, List.mem_singleton.mpr rfl⟩
    · cases hnext
      exact hmem

theorem declaration_mem_build {n : PlannedNode} {c : Choices} {filled : Sheet}
    (h : (NodeFunction.build n c).outcome = .ok filled) :
    declaration n ∈ filled.lines false := by
  obtain ⟨sheet, facts, found, hsheet, _, hfilled⟩ := build_eq_ok h
  obtain ⟨body, _, hdraft⟩ := NodeFunction.draft_eq_ok hsheet
  have hline : Item.ofText 0 (declaration n) ∈ sheet.items := by
    rw [hdraft]
    simp only [List.append_assoc]
    rw [takeAll_append]
    apply mem_items_takeAll
    rw [takeAll_code]
    exact List.mem_map_of_mem (by simp [NodeFunction.opening, declaration])
  refine List.mem_flatMap.mpr ⟨_, line_mem_intoSheetAll hline hfilled, ?_⟩
  have hprint := print_left (declaration n)
  exact hprint ▸ List.mem_singleton.mpr rfl

end Flowscript.Lexer
