-- The main file as the lexer sees it. It is lexically closed, and its
-- landmarks are the calls of the nodes in the order of the plan and, behind
-- them, the declarations in the order of the graph.
import Flowscript.Proofs.Functions
import Flowscript.Script.Entry

namespace Flowscript.Lexer

open Entry
open Recipe (code remark)

/-! ## The header -/

theorem reads_inert_block {x : String} (h : Inert x) (closers : List Char) :
    Reads ⟨.block, closers⟩ x ⟨.block, closers⟩ := by
  refine ⟨read_of_steps fun c hc => ?_, h.unbroken⟩
  have hstar : c ≠ '*' := by
    rintro rfl
    cases h _ hc
  simp [step, hstar]

theorem linesRead_header (p : Plan) (started : Moment) :
    LinesRead ⟨.code, []⟩ (header p started) [] ⟨.code, []⟩ := by
  have hstarted : PartsRead ⟨.block, []⟩ [.text (" * Generated: " ++ started.text)] ⟨.block, []⟩ :=
    .joined rfl rfl (.text (reads_inert_block (inert_moment started) []) .nil)
  apply StepsRead.ofCode
  simp only [header, code, List.map_cons, List.map_nil]
  repeat' first
    | exact hstarted
    | with_reducible apply stepsRead_comment
    | with_reducible apply Plain.joined
    | constructor

/-! ## The call of a node -/

theorem neutral_narration {c : Choices} {lines : List String} (h : StepsNeutral (code lines)) :
    StepsNeutral (narration c lines) := by
  unfold narration
  split
  · exact h
  · exact fun _ => .nil

theorem neutral_remark {x : String} (h : Text.Unbroken x) : StepsNeutral [remark x] := by
  intro closers
  have hparts : PartsRead ⟨.code, closers⟩ ["// ", x] ⟨.remark, closers⟩ :=
    .fixed rfl rfl (.text (.remark h) .nil)
  exact .line rfl (.fixed rfl) hparts rfl .nil

theorem callLine_eq (n : PlannedNode) : callLine n = "context.results[" ++
    (Json.quote n.id ++ ("] = " ++ (n.functionName ++ "(context);"))) := by
  unfold callLine
  rw [String.append_assoc, String.append_assoc, String.append_assoc]

theorem isCall_callLine (n : PlannedNode) : isCall (callLine n) = true := by
  rw [callLine_eq]
  exact isCall_head _

theorem landmark_callLine (n : PlannedNode) : Landmark (callLine n) := by
  refine ⟨Bool.or_eq_true_iff.mpr (Or.inl (isCall_callLine n)), ?_⟩
  rw [callLine_eq]
  exact unindent_of_head rfl _ _

theorem stepsRead_callSteps {n : PlannedNode} (hname : IsFunctionName n.functionName) (c : Choices)
    (closers : List Char) :
    StepsRead ⟨.code, closers⟩ (callSteps n c) [callLine n] ⟨.code, closers⟩ := by
  have hread : Reads ⟨.code, closers⟩ (callLine n) ⟨.code, closers⟩ :=
    ((((Reads.fixed rfl rfl).append (neutral_quote n.id).reads).append (.fixed rfl rfl)).append
      (neutral_of_inert hname.inert).reads).append (.fixed rfl rfl)
  refine StepsRead.followedBy (.mark rfl (landmark_callLine n) hread rfl .nil) ?_
  refine neutral_narration ?_ closers
  intro closers
  simp only [String.append_assoc]
  repeat' first
    | with_reducible apply PartsRead.joined
    | with_reducible apply PartsRead.spliced (neutral_quote _).reads
    | with_reducible apply Plain.joined
    | constructor

theorem neutral_failureSteps (n : PlannedNode) : StepsNeutral (failureSteps n) := by
  refine .append ?_ ?_
  · intro closers
    simp only [String.append_assoc]
    repeat' first
      | with_reducible apply PartsRead.joined
      | with_reducible apply PartsRead.spliced (neutral_quote _).reads
      | with_reducible apply Plain.joined
      | constructor
  · intro closers
    unfold aftermathSteps
    split
    all_goals repeat' constructor

theorem stepsRead_nodeSteps {n : PlannedNode} (hname : IsFunctionName n.functionName) (c : Choices)
    (closers : List Char) :
    StepsRead ⟨.code, closers⟩ (nodeSteps n c) [callLine n] ⟨.code, closers⟩ := by
  have hremark : Text.Unbroken
      ("Node: " ++ Text.remark n.id ++ " (" ++ Text.remark n.tag ++ ")") :=
    (((Text.Unbroken.append (by decide) (unbroken_remark _)).append (by decide)).append
      (unbroken_remark _)).append (by decide)
  have hstart : StepsNeutral
      (code ["Logger.log('Executing node: ' + " ++ Json.quote n.id ++ ");"]) := by
    intro closers
    simp only [String.append_assoc]
    repeat' first
      | with_reducible apply PartsRead.joined
      | with_reducible apply PartsRead.spliced (neutral_quote _).reads
      | with_reducible apply Plain.joined
      | constructor
  refine .before (((neutral_remark hremark).append (neutral_narration hstart)) closers) ?_
  split
  · simp only [List.append_assoc, List.cons_append, List.nil_append]
    refine .before (t := ⟨.code, '\x7d' :: closers⟩) (by repeat' constructor) ?_
    refine .deeper (.followedBy (stepsRead_callSteps hname c _) (.back ?_))
    refine .before (t := ⟨.code, '\x7d' :: closers⟩) (by repeat' constructor) ?_
    refine .deeper (.before (neutral_failureSteps n _) (.back ?_))
    repeat' constructor
  · exact stepsRead_callSteps hname c closers

/-! ## The entry function -/

theorem stepsRead_calls {order : List PlannedNode}
    (hnames : ∀ n ∈ order, IsFunctionName n.functionName) (c : Choices) (closers : List Char) :
    StepsRead ⟨.code, closers⟩ (order.flatMap fun n => code [""] ++ nodeSteps n c)
      (order.map callLine) ⟨.code, closers⟩ := by
  induction order with
  | nil => exact .nil
  | cons n rest ih =>
    rw [List.flatMap_cons, List.map_cons]
    exact ((neutral_blank closers).before (stepsRead_nodeSteps (hnames n (by simp)) c closers)).append
      (ih fun m hm => hnames m (List.mem_cons_of_mem _ hm))

theorem neutral_mailSteps (p : Plan) : StepsNeutral (mailSteps p) := by
  intro closers
  simp only [mailSteps, code, remark, List.map_cons, List.map_nil, List.cons_append, List.nil_append,
    String.append_assoc]
  repeat' first
    | with_reducible apply PartsRead.joined
    | with_reducible apply PartsRead.spliced (neutral_quote _).reads
    | with_reducible apply Plain.joined
    | constructor

theorem neutral_handlerSteps (p : Plan) : StepsNeutral (handlerSteps p) := by
  refine .append (.append ?_ ?_) ?_
  · intro closers
    repeat' constructor
  · split
    · exact neutral_mailSteps p
    · exact fun _ => .nil
  · intro closers
    repeat' constructor

/-- The rest of a function, behind the line that opens it: steps that lead to code with nothing more
to close, and the bracket that closes the function. -/
def EndsIn (s : List Char → State) (rest : List Step) (marks : List String) : Prop :=
  ∃ inside, rest = inside ++ ([.back] ++ code ["\x7d"]) ∧
    ∀ closers, StepsRead (s closers) inside marks ⟨.code, closers⟩

theorem EndsIn.before {s t : List Char → State} {steps rest : List Step} {marks : List String}
    (h : ∀ closers, StepsRead (s closers) steps [] (t closers)) (h' : EndsIn t rest marks) :
    EndsIn s (steps ++ rest) marks := by
  obtain ⟨inside, rfl, hinside⟩ := h'
  exact ⟨steps ++ inside, by simp, fun closers => (h closers).before (hinside closers)⟩

theorem EndsIn.behind {s t : List Char → State} {steps rest : List Step} {marks : List String}
    (h : ∀ closers, StepsRead (s closers) steps marks (t closers)) (h' : EndsIn t rest []) :
    EndsIn s (steps ++ rest) marks := by
  obtain ⟨inside, rfl, hinside⟩ := h'
  exact ⟨steps ++ inside, by simp, fun closers => (h closers).followedBy (hinside closers)⟩

/-- A function is read as a whole where the lexer reads what opens it and what is between its
brackets. -/
theorem EndsIn.function {opening rest : List Step} {marks : List String} {closers : List Char}
    (hopen : StepsRead ⟨.code, closers⟩ opening [] ⟨.code, '\x7d' :: closers⟩)
    (h : EndsIn (fun closers => ⟨.code, closers⟩) rest marks) :
    StepsRead ⟨.code, closers⟩ (opening ++ ([.deeper] ++ rest)) marks ⟨.code, closers⟩ := by
  obtain ⟨inside, rfl, hinside⟩ := h
  refine hopen.before (.before (.deeper .nil) (.followedBy (hinside _) ?_))
  repeat' constructor

/-- Between its brackets the entry function leaves the lexer as it was, and the landmarks there are
the calls of the nodes in order. -/
theorem endsIn_entrySteps {p : Plan} (hnames : ∀ n ∈ p.order, IsFunctionName n.functionName) :
    ∃ rest, entrySteps p = code [
        "/**",
        " * Main workflow execution function",
        " * Workflow: " ++ Text.remark p.graph.displayName,
        " */",
        "function executeWorkflow(triggerData) \x7b"] ++ ([.deeper] ++ rest) ∧
      EndsIn (fun closers => ⟨.code, closers⟩) rest (p.order.map callLine) := by
  have hnarration : ∀ {lines : List String}, StepsNeutral (code lines) → ∀ closers,
      StepsRead ⟨.code, closers⟩ (narration p.choices lines) [] ⟨.code, closers⟩ :=
    fun h closers => neutral_narration h closers
  have hname : "function " ++ functionName ++ "(triggerData) \x7b" =
      "function executeWorkflow(triggerData) \x7b" := rfl
  unfold entrySteps
  simp only [List.append_assoc, hname]
  refine ⟨_, rfl, ?_⟩
  refine .before (t := fun closers => ⟨.code, closers⟩) (fun _ => by repeat' constructor) ?_
  refine .before (hnarration fun closers => by repeat' constructor) ?_
  refine .before (t := fun closers => ⟨.code, '\x7d' :: closers⟩) (fun _ => by repeat' constructor) ?_
  refine .before (t := fun closers => ⟨.code, '\x7d' :: closers⟩) (fun _ => .deeper .nil) ?_
  refine .before (fun closers => hnarration (fun closers => by repeat' constructor) _) ?_
  refine .before (t := fun closers => ⟨.code, '\x7d' :: closers⟩) (fun closers => ?_) ?_
  · split
    all_goals repeat' constructor
  refine .behind (fun closers => stepsRead_calls hnames p.choices ('\x7d' :: closers)) ?_
  refine .before (t := fun closers => ⟨.code, '\x7d' :: closers⟩) (fun _ => by repeat' constructor) ?_
  refine .before (fun closers => hnarration (fun closers => by repeat' constructor) _) ?_
  refine .before (t := fun closers => ⟨.code, '\x7d' :: closers⟩) (fun _ => by repeat' constructor) ?_
  refine .before (t := fun closers => ⟨.code, '\x7d' :: closers⟩) (fun _ => .back .nil) ?_
  refine .before (t := fun closers => ⟨.code, '\x7d' :: closers⟩) (fun _ => by repeat' constructor) ?_
  refine .before (t := fun closers => ⟨.code, '\x7d' :: closers⟩) (fun _ => .deeper .nil) ?_
  refine .before (fun closers => neutral_handlerSteps p ('\x7d' :: closers)) ?_
  refine .before (t := fun closers => ⟨.code, '\x7d' :: closers⟩) (fun _ => .back .nil) ?_
  exact ⟨code ["\x7d"], rfl, fun _ => by repeat' constructor⟩

/-- The entry function is lexically closed, and its landmarks are the calls of the nodes in order. -/
theorem stepsRead_entrySteps {p : Plan} (hnames : ∀ n ∈ p.order, IsFunctionName n.functionName) :
    StepsRead ⟨.code, []⟩ (entrySteps p) (p.order.map callLine) ⟨.code, []⟩ := by
  obtain ⟨rest, hsteps, hrest⟩ := endsIn_entrySteps hnames
  rw [hsteps]
  refine hrest.function ?_
  simp only [code, List.map_cons, List.map_nil]
  repeat' first
    | with_reducible apply stepsRead_comment
    | constructor

theorem linesRead_entryLines {p : Plan} (hnames : ∀ n ∈ p.order, IsFunctionName n.functionName) :
    LinesRead ⟨.code, []⟩ (entryLines p) (p.order.map callLine) ⟨.code, []⟩ :=
  (stepsRead_entrySteps hnames).lines 0

/-! ## The main file -/

theorem linesRead_functions {nodes : List PlannedNode} {c : Choices} {functions : List Sheet}
    (hnames : ∀ n ∈ nodes, IsFunctionName n.functionName)
    (h : List.Forall₂ (fun n sheet => (NodeFunction.build n c).outcome = .ok sheet) nodes
      functions) :
    LinesRead ⟨.code, []⟩ (functions.flatMap fun sheet => "" :: sheet.lines false)
      (nodes.map declaration) ⟨.code, []⟩ := by
  induction h with
  | nil => exact .nil
  | @cons n sheet rest sheets hsheet _ ih =>
    rw [List.flatMap_cons, List.map_cons]
    exact ((neutral_blank []).ofCode.append (linesRead_build (hnames n (by simp)) hsheet)).append
      (ih fun m hm => hnames m (List.mem_cons_of_mem _ hm))

theorem declaration_mem_functions {nodes : List PlannedNode} {c : Choices} {functions : List Sheet}
    (h : List.Forall₂ (fun n sheet => (NodeFunction.build n c).outcome = .ok sheet) nodes
      functions) {n : PlannedNode} (hn : n ∈ nodes) :
    declaration n ∈ functions.flatMap fun sheet => "" :: sheet.lines false := by
  induction h with
  | nil => cases hn
  | @cons m sheet rest sheets hsheet _ ih =>
    rw [List.flatMap_cons, List.mem_append]
    rcases List.mem_cons.mp hn with rfl | hn
    · exact Or.inl (List.mem_cons_of_mem _ (declaration_mem_build hsheet))
    · exact Or.inr (ih hn)

/-- What the main file is made from: the functions of all nodes, behind the header and the entry
function. -/
theorem text_eq_ok {p : Plan} {started : Moment} {main : String}
    (h : (Entry.text p started).outcome = .ok main) :
    ∃ functions, List.Forall₂ (fun n sheet => (NodeFunction.build n p.choices).outcome = .ok sheet)
        p.nodes functions ∧
      main = Text.joinLines (header p started ++ entryLines p ++
        functions.flatMap fun sheet => "" :: sheet.lines false) ++ "\n" := by
  obtain ⟨lines, hlines, h⟩ := Traced.bind_eq_ok.mp h
  cases h
  obtain ⟨functions, hfunctions, hlines⟩ := Traced.bind_eq_ok.mp hlines
  cases hlines
  exact ⟨functions, Traced.forEach_eq_ok hfunctions, rfl⟩

theorem linesRead_main {p : Plan} {functions : List Sheet}
    (horder : ∀ n ∈ p.order, IsFunctionName n.functionName)
    (hnodes : ∀ n ∈ p.nodes, IsFunctionName n.functionName)
    (h : List.Forall₂ (fun n sheet => (NodeFunction.build n p.choices).outcome = .ok sheet) p.nodes
      functions) (started : Moment) :
    LinesRead ⟨.code, []⟩ (header p started ++ entryLines p ++
        functions.flatMap fun sheet => "" :: sheet.lines false)
      (p.order.map callLine ++ p.nodes.map declaration) ⟨.code, []⟩ :=
  ((linesRead_header p started).append (linesRead_entryLines horder)).append
    (linesRead_functions hnodes h)

/-- No value of the graph breaks a line of the main file. -/
theorem oneLine_main {g : Graph} {p : Plan} {functions : List Sheet} (hsound : Plan.Sound g p)
    (h : List.Forall₂ (fun n sheet => (NodeFunction.build n p.choices).outcome = .ok sheet) p.nodes
      functions) (started : Moment) :
    ∀ l ∈ header p started ++ entryLines p ++
      functions.flatMap (fun sheet => "" :: sheet.lines false), Text.OneLine l := by
  intro l hl
  have hread := linesRead_main (fun n hn => hsound.isFunctionName n (hsound.order_subset n hn))
    hsound.isFunctionName h started
  exact (hread.unbroken l hl).oneLine

/-- The main file: the lexer gets through its lines, their landmarks are the calls and then the
declarations, and the entry function stands among them. -/
structure MainFile (p : Plan) (main : String) : Prop where
  read : LinesRead ⟨.code, []⟩ (Text.lines main) (p.order.map callLine ++ p.nodes.map declaration)
    ⟨.code, []⟩
  closed : Closed main
  entry : entryLines p <:+: Text.lines main
  declared : ∀ n ∈ p.nodes, declaration n ∈ Text.lines main

theorem mainFile_of_text {p : Plan} {started : Moment} {main : String}
    (horder : ∀ n ∈ p.order, IsFunctionName n.functionName)
    (hnodes : ∀ n ∈ p.nodes, IsFunctionName n.functionName)
    (h : (Entry.text p started).outcome = .ok main) : MainFile p main := by
  obtain ⟨functions, hbuilt, rfl⟩ := text_eq_ok h
  have hread := linesRead_main horder hnodes hbuilt started
  have hne : header p started ++ entryLines p ++
      functions.flatMap (fun sheet => "" :: sheet.lines false) ≠ [] := by
    simp [header]
  have hcut := Text.lines_joinLines_feed hne hread.unbroken
  constructor
  · rw [hcut]
    exact hread
  · exact hread.closed
  · rw [hcut]
    exact List.infix_append _ _ _
  · intro n hn
    rw [hcut]
    exact List.mem_append_right _ (declaration_mem_functions hbuilt hn)

/-- The lines of a function stand together among those of all functions. -/
theorem lines_infix_functions {functions : List Sheet} {sheet : Sheet} (h : sheet ∈ functions)
    (front : List String) :
    sheet.lines false <:+: front ++ functions.flatMap fun sheet => "" :: sheet.lines false := by
  obtain ⟨before, after, rfl⟩ := List.append_of_mem h
  refine List.IsInfix.trans ⟨before.flatMap (fun sheet => "" :: sheet.lines false) ++ [""],
    after.flatMap fun sheet => "" :: sheet.lines false, ?_⟩ (List.infix_append_right ..)
  simp

/-- The function of every node stands in the main file. -/
theorem function_infix_of_text {p : Plan} {started : Moment} {main : String}
    (h : (Entry.text p started).outcome = .ok main) {n : PlannedNode} (hn : n ∈ p.nodes) :
    ∃ text, (NodeFunction.text n p.choices).outcome = .ok text ∧ text.toList <:+: main.toList := by
  obtain ⟨functions, hall, rfl⟩ := text_eq_ok h
  obtain ⟨sheet, hsheet, hbuilt⟩ := exists_of_forall₂ hall hn
  refine ⟨sheet.render false, Traced.bind_eq_ok.mpr ⟨sheet, hbuilt, rfl⟩, ?_⟩
  rw [Text.toList_joinLines_feed (by simp [header])]
  exact Text.infix_lineFed (lines_infix_functions hsheet _)

/-- The lines of the function of every node stand together in the main file. -/
theorem function_lines_of_text {p : Plan} {started : Moment} {main : String}
    (horder : ∀ n ∈ p.order, IsFunctionName n.functionName)
    (hnodes : ∀ n ∈ p.nodes, IsFunctionName n.functionName)
    (h : (Entry.text p started).outcome = .ok main) {n : PlannedNode} (hn : n ∈ p.nodes) :
    ∃ sheet, (NodeFunction.build n p.choices).outcome = .ok sheet ∧
      sheet.lines false <:+: Text.lines main := by
  obtain ⟨functions, hall, rfl⟩ := text_eq_ok h
  obtain ⟨sheet, hsheet, hbuilt⟩ := exists_of_forall₂ hall hn
  refine ⟨sheet, hbuilt, ?_⟩
  have hread := linesRead_main horder hnodes hall started
  rw [Text.lines_joinLines_feed (by simp [header]) hread.unbroken]
  exact lines_infix_functions hsheet _

end Flowscript.Lexer
