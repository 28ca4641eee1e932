-- Statements of the generated code: the lines that start with a given text,
-- behind their indents. In the function of a node they come from the body of
-- its recipe and from the snippets in its slots, and a line whose fixed text
-- parts from the start is none of them, whatever the configuration puts
-- behind it.
import Flowscript.Proofs.Credentials

namespace Flowscript

open Lexer (declaration filledLines flatMap_innerItems innerItems stepLines)

/-! ## Lines by their start -/

/-- Whether a line starts with a text, behind its indent. -/
def startsWith (start l : String) : Bool := start.toList.isPrefixOf (unindent l).toList

/-- The line without its indent, if it starts with the text. -/
def statement (start l : String) : List String := if startsWith start l then [unindent l] else []

/-- The lines that start with a text, without their indents. -/
def statements (start : String) (ls : List String) : List String := ls.flatMap (statement start)

@[simp]
theorem statements_nil (start : String) : statements start [] = [] := rfl

@[simp]
theorem statements_append (start : String) (ls ls' : List String) :
    statements start (ls ++ ls') = statements start ls ++ statements start ls' :=
  List.flatMap_append ..

theorem statements_cons (start l : String) (ls : List String) :
    statements start (l :: ls) = statement start l ++ statements start ls := List.flatMap_cons ..

theorem statements_eq_nil {start : String} {ls : List String}
    (h : ∀ l ∈ ls, startsWith start l = false) : statements start ls = [] := by
  refine List.flatMap_eq_nil_iff.mpr fun l hl => ?_
  rw [statement, h l hl]
  rfl

/-- Indents do not count. -/
theorem statement_margin (start : String) (indent : Int) (x : String) :
    statement start (margin indent ++ x) = statement start x := by
  unfold statement startsWith
  rw [unindent_margin]

theorem statement_print (start : String) (indent : Int) (x : String) :
    ((Item.line indent x).print false).flatMap (statement start) = statement start x := by
  unfold Item.print
  rw [List.flatMap_singleton]
  split
  · rename_i hx
    rw [hx]
  · exact statement_margin start indent x

/-- A line that starts with a text which is not indented is found as it stands. -/
theorem statement_hit {c : Char} (hc : Text.isBlank c = false) (cs : List Char) (x : String) :
    statement (String.ofList (c :: cs)) (String.ofList (c :: cs) ++ x) =
      [String.ofList (c :: cs) ++ x] := by
  have hline := unindent_of_head hc cs x
  have hstart : startsWith (String.ofList (c :: cs)) (String.ofList (c :: cs) ++ x) = true := by
    unfold startsWith
    rw [hline, String.toList_append, List.isPrefixOf_iff_prefix]
    exact List.prefix_append _ _
  rw [statement, if_pos hstart, hline]

/-! ## Fixed text -/

/-- Whether a line that begins with these characters does not start with the head, whatever follows
them. -/
def skips (head cs : List Char) : Bool := apart (cs.dropWhile Text.isBlank) head

theorem startsWith_of_skips {head cs : List Char} (h : skips head cs = true) (x : String) :
    startsWith (String.ofList head) (String.ofList cs ++ x) = false := by
  unfold startsWith
  rw [toList_unindent_of_apart h, String.toList_ofList]
  exact isPrefixOf_eq_false_of_apart h _

/-- The statements among lines. A line is passed over where its fixed text parts from the head, and it
is found where it starts with the head, at any indent. -/
inductive Finds (head : List Char) : List String → List String → Prop where
  | nil : Finds head [] []
  | fixed {cs : List Char} {ls found : List String} (hcs : skips head cs = true)
      (h : Finds head ls found) : Finds head (String.ofList cs :: ls) found
  | text {cs : List Char} {x : String} {ls found : List String} (hcs : skips head cs = true)
      (h : Finds head ls found) : Finds head ((String.ofList cs ++ x) :: ls) found
  | hit {indent : Int} {x : String} {ls found : List String} (h : Finds head ls found) :
      Finds head ((margin indent ++ (String.ofList head ++ x)) :: ls)
        ((String.ofList head ++ x) :: found)

theorem Finds.statements_eq {c : Char} {cs : List Char} (hc : Text.isBlank c = false)
    {ls found : List String} (h : Finds (c :: cs) ls found) :
    statements (String.ofList (c :: cs)) ls = found := by
  induction h with
  | nil => rfl
  | @fixed cs ls found hcs _ ih =>
    have hline := startsWith_of_skips hcs ""
    rw [String.append_empty] at hline
    rw [statements_cons, statement, hline, ih]
    rfl
  | @text cs x ls found hcs _ ih =>
    rw [statements_cons, statement, startsWith_of_skips hcs x, ih]
    rfl
  | @hit indent x ls found _ ih =>
    rw [statements_cons, statement_margin, statement_hit hc, ih]
    rfl

/-! ## Steps -/

/-- None of the lines that the steps write starts with the text. -/
def Quiet (start : String) (steps : List Step) : Prop :=
  ∀ parts, .line parts ∈ steps → startsWith start (lineCode parts) = false

theorem quiet_of_shapes {head : List Char} {steps : List Step}
    (h : ∀ s ∈ shapes steps, skips head (spelledHead (spell s)) = true) :
    Quiet (String.ofList head) steps := by
  intro parts hparts
  obtain ⟨x, hx⟩ := lineCode_eq_head parts
  rw [hx]
  exact startsWith_of_skips (h _ (mem_shapes hparts)) x

/-- Where the lines of the steps are quiet, statements come from the slots alone. -/
theorem Quiet.statements {start : String} {steps : List Step} (h : Quiet start steps)
    (snippet : SlotKind → List String) :
    statements start (steps.flatMap (stepLines snippet)) =
      (slots steps).flatMap fun kind => statements start (snippet kind) := by
  induction steps with
  | nil => rfl
  | cons st rest ih =>
    have hrest := ih fun parts hparts => h parts (List.mem_cons_of_mem _ hparts)
    rw [List.flatMap_cons, statements_append, hrest]
    cases st with
    | line parts =>
      have hline := h parts (List.mem_cons_self ..)
      rw [stepLines, statements_eq_nil (List.forall_mem_singleton.mpr hline)]
      rfl
    | slot kind => rfl
    | deeper => rfl
    | back => rfl

/-- One line of the steps is a statement, and it stands before the slots. -/
theorem statements_at {start : String} {steps : List Step} {parts : List Part} (i : Nat)
    (hline : steps.drop i = .line parts :: steps.drop (i + 1)) (hslots : slots (steps.take i) = [])
    (hfront : Quiet start (steps.take i)) (hback : Quiet start (steps.drop (i + 1)))
    (snippet : SlotKind → List String) :
    statements start (steps.flatMap (stepLines snippet)) =
      statement start (lineCode parts) ++
        (slots (steps.drop (i + 1))).flatMap fun kind => statements start (snippet kind) := by
  have hsplit : steps = steps.take i ++ [.line parts] ++ steps.drop (i + 1) := by
    rw [List.append_assoc, List.singleton_append, ← hline, List.take_append_drop]
  calc statements start (steps.flatMap (stepLines snippet))
      = statements start ((steps.take i).flatMap (stepLines snippet)) ++
          statements start [lineCode parts] ++
          statements start ((steps.drop (i + 1)).flatMap (stepLines snippet)) := by
        rw [← statements_append, ← statements_append]
        conv_lhs => rw [hsplit, List.flatMap_append, List.flatMap_append]
        rfl
    _ = _ := by
        rw [hfront.statements, hslots, hback.statements, statements, List.flatMap_singleton]
        rfl

/-! ## Nodes that poll -/

/-- What nodes of the kind poll, if they poll anything. -/
def Kind.source? : Kind → Option String
  | .gmailTrigger => some "gmail"
  | .sheetsTrigger => some "sheets"
  | _ => none

/-- The node polls the source. -/
def PlannedNode.Polls (n : PlannedNode) (source : String) : Prop :=
  n.kind?.bind Kind.source? = some source

theorem PlannedNode.Polls.of_kind {n : PlannedNode} {k : Kind} {source : String}
    (hk : n.kind? = some k) (hs : k.source? = some source) : n.Polls source := by
  rw [PlannedNode.Polls, hk]
  exact hs

theorem PlannedNode.Polls.kind {n : PlannedNode} {source : String} (h : n.Polls source) :
    (n.kind? = some .gmailTrigger ∧ source = "gmail") ∨
      (n.kind? = some .sheetsTrigger ∧ source = "sheets") := by
  obtain ⟨k, hk, hsource⟩ := Option.bind_eq_some_iff.mp h
  cases k with
  | gmailTrigger =>
    cases hsource
    exact Or.inl ⟨hk, rfl⟩
  | sheetsTrigger =>
    cases hsource
    exact Or.inr ⟨hk, rfl⟩
  | _ => cases hsource

theorem PlannedNode.Polls.slots {n : PlannedNode} {source : String} (h : n.Polls source) :
    slotsOf n.kind? = [.dedup] := by
  rcases h.kind with ⟨hk, -⟩ | ⟨hk, -⟩
  all_goals
    rw [hk]
    rfl

theorem PlannedNode.Polls.facts {n : PlannedNode} {source : String} (h : n.Polls source)
    {c : Choices} {f : Facts} (hf : n.recipe.facts n c = .ok f) :
    Recipe.pollingFacts source n c = .ok f := by
  rcases h.kind with ⟨hk, rfl⟩ | ⟨hk, rfl⟩
  all_goals
    rw [PlannedNode.recipe_of_kind hk] at hf
    exact hf

/-! ## Nodes that call a service -/

/-- The service that nodes of the kind call, if they call one. -/
def Kind.service? : Kind → Option Recipe.Service
  | .httpRequest => some Recipe.anyService
  | .slackPost => some Recipe.slack
  | _ => none

/-- The node calls the service. -/
def PlannedNode.Requests (n : PlannedNode) (s : Recipe.Service) : Prop :=
  n.kind?.bind Kind.service? = some s

theorem PlannedNode.Requests.kind {n : PlannedNode} {s : Recipe.Service} (h : n.Requests s) :
    (n.kind? = some .httpRequest ∧ s = Recipe.anyService) ∨
      (n.kind? = some .slackPost ∧ s = Recipe.slack) := by
  obtain ⟨k, hk, hservice⟩ := Option.bind_eq_some_iff.mp h
  cases k with
  | httpRequest =>
    cases hservice
    exact Or.inl ⟨hk, rfl⟩
  | slackPost =>
    cases hservice
    exact Or.inr ⟨hk, rfl⟩
  | _ => cases hservice

theorem PlannedNode.Requests.slots {n : PlannedNode} {s : Recipe.Service} (h : n.Requests s) :
    slotsOf n.kind? = [.rateLimit, .auth, .error] := by
  rcases h.kind with ⟨hk, -⟩ | ⟨hk, -⟩
  all_goals
    rw [hk]
    rfl

theorem PlannedNode.Requests.facts {n : PlannedNode} {s : Recipe.Service} (h : n.Requests s)
    {c : Choices} {f : Facts} (hf : n.recipe.facts n c = .ok f) :
    Recipe.serviceFacts s n c = .ok f := by
  rcases h.kind with ⟨hk, rfl⟩ | ⟨hk, rfl⟩
  all_goals
    rw [PlannedNode.recipe_of_kind hk] at hf
    exact hf

/-! ## Functions -/

/-- Whether the head is no start of a comment, of a declaration or of a closing bracket. -/
def opensCode (head : List Char) : Bool := ['/', '*', 'f', '\x7d'].all fun c => apart [c] head

theorem apart_cons {c : Char} {head : List Char} (h : apart [c] head = true) (cs : List Char) :
    apart (c :: cs) head = true := by
  cases head with
  | nil => cases h
  | cons d head =>
    have hne : (c != d) = true := (Bool.or_eq_true_iff.mp h).resolve_right Bool.false_ne_true
    rw [apart, hne, Bool.true_or]

/-- The comment of a function, its declaration and its last bracket are no statements. -/
theorem startsWith_frame {head : List Char} (h : opensCode head = true) (n : PlannedNode) :
    ∀ l ∈ NodeFunction.opening n ++ ["\x7d"], startsWith (String.ofList head) l = false := by
  simp only [opensCode, List.all_cons, List.all_nil, Bool.and_true, Bool.and_eq_true] at h
  obtain ⟨hslash, hstar, hletter, hbracket⟩ := h
  unfold NodeFunction.opening
  simp only [String.append_assoc, List.cons_append, List.nil_append]
  refine Headed.all (by repeat' first | with_reducible apply Headed.text | constructor)
    (fun _ => startsWith_of_skips) ?_
  simp only [List.all_cons, List.all_nil, Bool.and_true, Bool.and_eq_true]
  exact ⟨apart_cons hslash _, apart_cons hstar _, apart_cons hstar _, apart_cons hstar _,
    apart_cons hstar _, apart_cons hletter _, hbracket⟩

/-- A function is composed of a body and of snippets for its slots: its statements are those of the
body, where the slots are filled. -/
structure Composed (n : PlannedNode) (c : Choices) (sheet : Sheet) (body : List Step)
    (facts : Facts) : Prop where
  ofRecipe : (n.recipe.body n c).outcome = .ok body
  factsOf : n.recipe.facts n c = .ok facts
  ready : ∀ kind ∈ slotsOf n.kind?,
    (Snippet.lines kind facts).outcome = .ok (Snippet.linesOr facts kind)
  statements_eq : ∀ head : List Char, opensCode head = true →
    statements (String.ofList head) (sheet.lines false) =
      statements (String.ofList head) (body.flatMap (stepLines (Snippet.linesOr facts)))

theorem composed_of_build {n : PlannedNode} {c : Choices} {sheet : Sheet}
    (h : (NodeFunction.build n c).outcome = .ok sheet) :
    ∃ body facts, Composed n c sheet body facts := by
  obtain ⟨draft, body, facts, hdraft, hbody, hfacts, rfl, hready, hslots⟩ := Lexer.parts_of_build h
  obtain ⟨body', hbody', hitems⟩ := Lexer.items_draft hdraft
  cases hbody.symm.trans hbody'
  refine ⟨body, facts, hbody, hfacts, fun kind hkind => ?_, fun head hhead => ?_⟩
  · rw [← slots_body hbody] at hkind
    exact hready kind (hslots kind (slot_mem hkind))
  have hframe := startsWith_frame hhead n
  have hcomment : statements (String.ofList head) ((NodeFunction.opening n).take 5) = [] :=
    statements_eq_nil fun l hl => hframe l (List.mem_append_left _ (List.mem_of_mem_take hl))
  have hopen : statement (String.ofList head) (declaration n) = [] := by
    rw [statement, hframe _ (by simp [NodeFunction.opening, declaration])]
    rfl
  have hclose : statement (String.ofList head) "\x7d" = [] := by
    rw [statement, hframe _ (by simp)]
    rfl
  have hinner := flatMap_innerItems (statement_print (String.ofList head)) n body
    (Snippet.linesOr facts)
  rw [hopen, hclose, List.nil_append, List.append_nil] at hinner
  rw [Lexer.lines_fillAll hitems, statements_append, hcomment, List.nil_append]
  exact hinner

/-! ## Statements that the configuration decides -/

/-- Statements with a number or a key in them that the configuration of the node decides. -/
inductive Statement where
  | maxResults
  | pause
  | rateLimit
  | expiry
  | itemKey
deriving DecidableEq

namespace Statement

/-- What the statement starts with. -/
def start : Statement → String
  | .maxResults => "const maxResults = "
  | .pause => "const delayMs = "
  | .rateLimit => "checkRateLimit("
  | .expiry => "markProcessed("
  | .itemKey => "const itemKey = "

def all : List Statement := [.maxResults, .pause, .rateLimit, .expiry, .itemKey]

theorem mem_all (s : Statement) : s ∈ all := by
  cases s <;> decide

theorem opensCode_start (s : Statement) : opensCode s.start.toList = true := by
  cases s <;> decide

/-- The statements that the body of a kind brings itself. -/
def ofBody : Option Kind → List Statement
  | some .gmailTrigger => [.maxResults]
  | some .gmailRead => [.maxResults]
  | some .delay => [.pause]
  | _ => []

/-- The statements that a snippet brings. -/
def ofSnippet : SlotKind → List Statement
  | .auth => []
  | .error => []
  | .rateLimit => [.rateLimit]
  | .dedup => [.expiry, .itemKey]

/-- Whether a line that begins with these characters is no statement, apart from the given ones. -/
def skipped (own : List Statement) (cs : List Char) : Bool :=
  all.all fun s => own.contains s || skips s.start.toList cs

theorem startsWith_of_skipped {own : List Statement} {cs : List Char}
    (h : skipped own cs = true) {s : Statement} (hs : s ∉ own) (x : String) :
    startsWith s.start (String.ofList cs ++ x) = false := by
  have hskips : (own.contains s || skips s.start.toList cs) = true :=
    List.all_eq_true.mp h s s.mem_all
  rw [List.contains_eq_mem, decide_eq_false hs, Bool.false_or] at hskips
  have hstart := startsWith_of_skips hskips x
  rwa [String.ofList_toList] at hstart

theorem skipped_trialShapes (saves : Bool) (k : Option Kind) :
    ∀ s ∈ trialShapes saves k, skipped (ofBody k) (spelledHead (spell s)) = true := by
  cases k with
  | none =>
    exact Spelled.all (fun s => skipped [] (spelledHead s)) (by repeat' constructor) rfl
  | some k =>
    cases k with
    | logger =>
      cases saves <;> exact Spelled.all (fun s => skipped [] (spelledHead s))
        (by repeat' constructor) rfl
    | _ =>
      exact Spelled.all (fun s => skipped _ (spelledHead s)) (by repeat' constructor) rfl

theorem quiet_body {n : PlannedNode} {c : Choices} {body : List Step}
    (h : (n.recipe.body n c).outcome = .ok body) {s : Statement} (hs : s ∉ ofBody n.kind?) :
    Quiet s.start body := by
  intro parts hparts
  obtain ⟨x, hx⟩ := lineCode_eq_head parts
  rw [hx]
  exact startsWith_of_skipped (skipped_trialShapes _ _ _ (shape_mem_of_body h hparts)) hs x

/-- Each snippet brings its own statements only. -/
theorem statements_snippet {kind : SlotKind} {f : Facts} (hf : Lexer.Usual f) {lines : List String}
    (h : (Snippet.lines kind f).outcome = .ok lines) {s : Statement} (hs : s ∉ ofSnippet kind) :
    statements s.start lines = [] := by
  have hstarted := Snippet.started hf h
  refine statements_eq_nil ?_
  cases kind
  all_goals
    exact hstarted.all (by repeat' constructor) (fun _ hcs => startsWith_of_skipped hcs hs) rfl

end Statement

section Composed

variable {n : PlannedNode} {c : Choices} {sheet : Sheet} {body : List Step} {facts : Facts}

theorem Composed.statements_start (h : Composed n c sheet body facts) (s : Statement) :
    statements s.start (sheet.lines false) =
      statements s.start (body.flatMap (stepLines (Snippet.linesOr facts))) := by
  have heq := h.statements_eq _ s.opensCode_start
  rwa [String.ofList_toList] at heq

theorem Composed.statements_snippet (h : Composed n c sheet body facts) {kind : SlotKind}
    (hkind : kind ∈ slotsOf n.kind?) {s : Statement} (hs : s ∉ Statement.ofSnippet kind) :
    statements s.start (Snippet.linesOr facts kind) = [] :=
  Statement.statements_snippet (Lexer.usual_of_facts h.factsOf) (h.ready kind hkind) hs

/-- Statements that the body does not bring itself come from the snippets. -/
theorem Composed.statements_slots (h : Composed n c sheet body facts) {s : Statement}
    (hs : s ∉ Statement.ofBody n.kind?) :
    statements s.start (sheet.lines false) =
      (slotsOf n.kind?).flatMap fun kind => statements s.start (Snippet.linesOr facts kind) := by
  rw [h.statements_start, (Statement.quiet_body h.ofRecipe hs).statements, slots_body h.ofRecipe]

/-- A statement that neither the body nor a snippet brings does not occur. -/
theorem Composed.statements_eq_nil (h : Composed n c sheet body facts) {s : Statement}
    (hbody : s ∉ Statement.ofBody n.kind?)
    (hsnippet : ∀ kind ∈ slotsOf n.kind?, s ∉ Statement.ofSnippet kind) :
    statements s.start (sheet.lines false) = [] := by
  rw [h.statements_slots hbody]
  exact List.flatMap_eq_nil_iff.mpr fun kind hkind => h.statements_snippet hkind (hsnippet kind hkind)

end Composed

namespace Statement

/-! ## Snippets -/

/-- The call of the rate limiter, which stands there where rate limiting is on. -/
theorem statements_rateLimitLines {f : Facts} {lines : List String} {requests window : Int}
    (hrequests : f.requestsPerMinute = .int requests) (hwindow : f.windowMs = .int window)
    (h : Snippet.rateLimitLines f = .ok lines) :
    statements rateLimit.start lines = if f.rateLimiting then
      ["checkRateLimit(" ++ (Json.literal f.slug ++ (", " ++ (toString requests ++ (", " ++
        (toString window ++ ");")))))] else [] := by
  rcases Snippet.rateLimitLines_eq_ok h with
    ⟨hoff, rfl⟩ | ⟨requests', window', hon, hrequests', hwindow', rfl⟩
  · rw [hoff]
    rfl
  · rw [hrequests] at hrequests'
    rw [hwindow] at hwindow'
    cases hrequests'
    cases hwindow'
    rw [if_pos hon]
    simp only [Snippet.limitCode, String.append_assoc]
    exact Finds.statements_eq rfl (.fixed rfl (@Finds.hit _ 0 _ _ _ .nil))

/-- The filter builds one key for an item and notes it in two places. -/
theorem statements_dedupLines {f : Facts} (hf : Lexer.Usual f) {lines : List String}
    (h : Snippet.dedupLines f = .ok lines) :
    ∃ hours stem, Snippet.hoursCode f.ttlHours = .ok hours ∧ f.itemStem = .ok stem ∧
      statements itemKey.start lines = ["const itemKey = " ++ (Json.quote stem ++
        " + (item.id || item.uuid || JSON.stringify(item));")] ∧
      statements expiry.start lines = ["markProcessed(" ++ ("itemKey, " ++ (hours ++ ");")),
        "markProcessed(" ++ ("itemKey, " ++ (hours ++ ");"))] := by
  obtain ⟨hours, hhours, h⟩ := except_bind_eq_ok.mp h
  obtain ⟨stem, hstem, h⟩ := except_bind_eq_ok.mp h
  cases h
  have hkey (x : String) : "  const itemKey = " ++ x = margin 1 ++ ("const itemKey = " ++ x) := by
    rw [← String.append_assoc]
    rfl
  have hnew (x : String) : "  markProcessed(itemKey, " ++ x =
      margin 1 ++ ("markProcessed(" ++ ("itemKey, " ++ x)) := by
    rw [← String.append_assoc, ← String.append_assoc]
    rfl
  have hagain (x : String) : "    markProcessed(itemKey, " ++ x =
      margin 2 ++ ("markProcessed(" ++ ("itemKey, " ++ x)) := by
    rw [← String.append_assoc, ← String.append_assoc]
    rfl
  refine ⟨hours, stem, except_mapError_eq_ok.mp hhours, hstem, ?_, ?_⟩
  · simp only [Snippet.dedupCode, hf.itemsVar, String.append_assoc, hkey]
    refine Finds.statements_eq rfl ?_
    repeat' first
      | with_reducible apply Finds.hit
      | refine .text rfl ?_
      | refine .fixed rfl ?_
      | exact .nil
  · simp only [Snippet.dedupCode, hf.itemsVar, String.append_assoc, hnew, hagain]
    refine Finds.statements_eq rfl ?_
    repeat' first
      | with_reducible apply Finds.hit
      | refine .text rfl ?_
      | refine .fixed rfl ?_
      | exact .nil

/-! ## Bodies with a number -/

/-- The body has a line that sets a number, before its slots, and no other line like it. -/
theorem statements_number {c : Char} {cs : List Char} (hc : Text.isBlank c = false)
    {steps : List Step} {k : Int} (i : Nat)
    (hline : steps.drop i = .line [.text (String.ofList (c :: cs)), .number k, .text ";"] ::
      steps.drop (i + 1))
    (hslots : slots (steps.take i) = [])
    (hfront : ∀ s ∈ shapes (steps.take i), skips (c :: cs) (spelledHead (spell s)) = true)
    (hback : ∀ s ∈ shapes (steps.drop (i + 1)), skips (c :: cs) (spelledHead (spell s)) = true)
    (snippet : SlotKind → List String) :
    statements (String.ofList (c :: cs)) (steps.flatMap (stepLines snippet)) =
      (String.ofList (c :: cs) ++ toString k ++ ";") :: (slots (steps.drop (i + 1))).flatMap
        fun kind => statements (String.ofList (c :: cs)) (snippet kind) := by
  have hcode : lineCode [.text (String.ofList (c :: cs)), .number k, .text ";"] =
      String.ofList (c :: cs) ++ (toString k ++ ";") := by
    rw [lineCode_cons, lineCode_cons, lineCode_text]
    rfl
  rw [statements_at i hline hslots (quiet_of_shapes hfront) (quiet_of_shapes hback), hcode,
    statement_hit hc, String.append_assoc]
  rfl

theorem statements_maxResults {n : PlannedNode} {c : Choices} {body : List Step}
    (hk : n.kind? = some .gmailTrigger ∨ n.kind? = some .gmailRead)
    (h : (n.recipe.body n c).outcome = .ok body) (snippet : SlotKind → List String) :
    ∃ k, Config.whole n.id n.config "maxResults" 10 = .ok k ∧
      statements Statement.maxResults.start (body.flatMap (stepLines snippet)) =
        ("const maxResults = " ++ toString k ++ ";") ::
          (slots body).flatMap fun kind => statements Statement.maxResults.start (snippet kind) := by
  rcases hk with hk | hk
  all_goals
    rw [PlannedNode.recipe_of_kind hk] at h
    obtain ⟨o, ho, rfl, -⟩ := Recipe.body_eq_ok.mp h
    obtain ⟨_, _, ho⟩ := Traced.bind_eq_ok.mp ho
    obtain ⟨k, hwhole, ho⟩ := Traced.bind_eq_ok.mp ho
    cases ho
    refine ⟨k, hwhole, statements_number rfl 2 rfl rfl ?_ ?_ snippet⟩
    · exact Spelled.all (fun s => skips _ (spelledHead s)) (by repeat' constructor) rfl
    · exact Spelled.all (fun s => skips _ (spelledHead s)) (by repeat' constructor) rfl

theorem statements_pause {n : PlannedNode} {c : Choices} {body : List Step}
    (hk : n.kind? = some .delay) (h : (n.recipe.body n c).outcome = .ok body)
    (snippet : SlotKind → List String) :
    ∃ milliseconds seconds total,
      Config.whole n.id n.config "delayMs" 1000 = .ok milliseconds ∧
      Config.whole n.id n.config "delaySeconds" 0 = .ok seconds ∧
      (Recipe.cappedDelay n.id (milliseconds + seconds * 1000)).outcome = .ok total ∧
      statements Statement.pause.start (body.flatMap (stepLines snippet)) =
        ["const delayMs = " ++ toString total ++ ";"] := by
  rw [PlannedNode.recipe_of_kind hk] at h
  obtain ⟨o, ho, rfl, -⟩ := Recipe.body_eq_ok.mp h
  obtain ⟨milliseconds, hmilliseconds, ho⟩ := Traced.bind_eq_ok.mp ho
  obtain ⟨seconds, hseconds, ho⟩ := Traced.bind_eq_ok.mp ho
  obtain ⟨total, htotal, ho⟩ := Traced.bind_eq_ok.mp ho
  cases ho
  refine ⟨milliseconds, seconds, total, hmilliseconds, hseconds, htotal,
    statements_number rfl 1 rfl rfl ?_ ?_ snippet⟩
  · exact Spelled.all (fun s => skips _ (spelledHead s)) (by repeat' constructor) rfl
  · exact Spelled.all (fun s => skips _ (spelledHead s)) (by repeat' constructor) rfl

end Statement

/-! ## Items that are remembered -/

/-- The function of a node that polls builds keys in one place, from the source and the id of the node,
and it remembers an item in two places, for the time to live. -/
theorem Composed.statements_of_polling {n : PlannedNode} {c : Choices} {sheet : Sheet}
    {body : List Step} {facts : Facts} (h : Composed n c sheet body facts) {source : String}
    (hs : n.Polls source) :
    ∃ hours code, (Config.getD n.config "dedupTtlHours" (.int 24)).toReal = .ok hours ∧
      Snippet.hoursCode (.real hours) = .ok code ∧
      statements Statement.itemKey.start (sheet.lines false) =
        ["const itemKey = " ++ (Json.quote (source ++ ":" ++ n.id ++ ":") ++
          " + (item.id || item.uuid || JSON.stringify(item));")] ∧
      statements Statement.expiry.start (sheet.lines false) =
        ["markProcessed(" ++ ("itemKey, " ++ (code ++ ");")),
          "markProcessed(" ++ ("itemKey, " ++ (code ++ ");"))] := by
  obtain ⟨hours, hhours, hfacts⟩ := Recipe.pollingFacts_eq_ok (hs.facts h.factsOf)
  have hslots := hs.slots
  have hlines : Snippet.dedupLines facts = .ok (Snippet.linesOr facts .dedup) :=
    h.ready .dedup (by rw [hslots]; decide)
  obtain ⟨code, stem, hcode, hstem, hkey, hexpiry⟩ :=
    Statement.statements_dedupLines (Lexer.usual_of_facts h.factsOf) hlines
  rw [hfacts] at hcode hstem
  cases hstem
  have hbody {s : Statement} (hs' : s ∈ Statement.ofSnippet .dedup) :
      s ∉ Statement.ofBody n.kind? := by
    rcases hs.kind with ⟨hk, -⟩ | ⟨hk, -⟩
    all_goals
      rw [hk]
      revert s
      decide
  have hfound {s : Statement} (hs' : s ∈ Statement.ofSnippet .dedup) :
      statements s.start (sheet.lines false) = statements s.start (Snippet.linesOr facts .dedup) := by
    rw [h.statements_slots (hbody hs'), hslots, List.flatMap_singleton]
  refine ⟨hours, code, hhours, hcode, ?_, ?_⟩
  · rw [hfound (by decide), hkey]
  · rw [hfound (by decide), hexpiry]

end Flowscript
