-- The calls of the main file. Whatever ids, tags and settings the graph
-- holds, the entry function calls every node once and in order, and every
-- function that is called is declared once.
import Flowscript.Proofs.Script

namespace Flowscript

open Lexer
open Entry (callLine entryLines)

/-! ## Calls and declarations -/

/-- The statements that call the nodes of a plan, in the order of the plan. -/
def calls (p : Plan) : List String := p.order.map fun n =>
  "context.results[" ++ Json.literal (.text n.id) ++ "] = " ++ n.functionName ++ "(context);"

theorem calls_eq (p : Plan) : calls p = p.order.map callLine := by
  have hquote : ∀ s, Json.literal (.text s) = Json.quote s := by
    intro s
    rw [Json.literal, Json.write]
  unfold calls callLine
  simp only [hquote]

theorem isCall_declaration {n : PlannedNode} (h : IsFunctionName n.functionName) :
    isCall (declaration n) = false := by
  obtain ⟨tail, htail⟩ := declaration_eq h
  rw [htail]
  exact isCall_declaration_head tail

theorem isDeclaration_callLine (n : PlannedNode) : isDeclaration (callLine n) = false := by
  rw [callLine_eq]
  exact isDeclaration_call_head _

theorem nodup_declarations {nodes : List PlannedNode}
    (h : (nodes.map PlannedNode.functionName).Nodup) : (nodes.map declaration).Nodup := by
  have hinj : Function.Injective fun name : String => "function " ++ name ++ "(context) \x7b" := by
    intro a b hab
    have hlist := congrArg String.toList hab
    simp only [String.toList_append, List.append_assoc, List.append_cancel_left_eq,
      List.append_cancel_right_eq] at hlist
    exact String.toList_inj.mp hlist
  have hmap : nodes.map declaration =
      (nodes.map PlannedNode.functionName).map fun name => "function " ++ name ++ "(context) \x7b" := by
    rw [List.map_map]
    rfl
  rw [hmap]
  exact h.map hinj

theorem filter_isCall_calls (order : List PlannedNode) :
    (order.map callLine).filter isCall = order.map callLine := by
  apply List.filter_eq_self.mpr
  intro l hl
  obtain ⟨n, _, rfl⟩ := List.mem_map.mp hl
  exact isCall_callLine n

theorem filter_isCall_declarations {nodes : List PlannedNode}
    (hnames : ∀ n ∈ nodes, IsFunctionName n.functionName) :
    (nodes.map declaration).filter isCall = [] := by
  apply List.filter_eq_nil_iff.mpr
  intro l hl
  obtain ⟨n, hn, rfl⟩ := List.mem_map.mp hl
  simp [isCall_declaration (hnames n hn)]

theorem count_declaration {p : Plan} {main : String} (h : MainFile p main)
    (hnames : ∀ n ∈ p.nodes, IsFunctionName n.functionName)
    (hnodup : (p.nodes.map PlannedNode.functionName).Nodup) {n : PlannedNode} (hn : n ∈ p.nodes) :
    (Text.lines main).count (declaration n) = 1 := by
  have hno : declaration n ∉ p.order.map callLine := by
    intro hmem
    obtain ⟨m, _, he⟩ := List.mem_map.mp hmem
    have hdecl := isDeclaration_declaration (hnames n hn)
    rw [← he, isDeclaration_callLine] at hdecl
    cases hdecl
  have hle := count_le_count_landmarks (landmark_declaration (hnames n hn)) (Text.lines main)
  rw [h.read.landmarks_eq, List.count_append, List.count_eq_zero.mpr hno] at hle
  have hone := List.nodup_iff_count_le_one.mp (nodup_declarations hnodup) (declaration n)
  have hpos := List.count_pos_iff.mpr (h.declared n hn)
  omega

/-- The entry function calls every node of the graph once, the source of an edge before its target,
and no other line of the file is such a call. Every function that is called is declared by one line
at the left edge, and no other function of a node is declared. -/
theorem every_node_is_called_once_and_in_order {g : Graph} {c : Choices} {p : Plan}
    {started : Moment} {main : String} (hplan : (Plan.build g c).outcome = .ok p)
    (hmain : (Entry.text p started).outcome = .ok main) :
    entryLines p <:+: Text.lines main ∧
    ((entryLines p).filter isCall).map unindent = calls p ∧
    ((Text.lines main).filter isCall).map unindent = calls p ∧
    (p.order.map PlannedNode.id).Nodup ∧
    (∀ id, id ∈ p.order.map PlannedNode.id ↔ id ∈ g.nodes.map Node.id) ∧
    (∀ e ∈ g.edges, e.source ∈ g.nodes.map Node.id → e.target ∈ g.nodes.map Node.id →
      (p.order.map PlannedNode.id).idxOf e.source < (p.order.map PlannedNode.id).idxOf e.target) ∧
    (∀ n ∈ p.order, (Text.lines main).count (declaration n) = 1) ∧
    ∀ l ∈ Text.lines main, isDeclaration l = true → ∃ n ∈ p.order, unindent l = declaration n := by
  have hsound := Plan.sound_of_build hplan
  have horder : ∀ n ∈ p.order, IsFunctionName n.functionName :=
    fun n hn => hsound.isFunctionName n (hsound.order_subset n hn)
  have hfile := mainFile_of_text horder hsound.isFunctionName hmain
  obtain ⟨hnodup, hmem, hforward⟩ := RunOrder.order_forward hsound.order_eq
  rw [calls_eq]
  refine ⟨hfile.entry, ?_, ?_, hnodup, hmem, ?_, ?_, ?_⟩
  · rw [← filter_isCall_landmarks, (linesRead_entryLines horder).landmarks_eq, filter_isCall_calls]
  · rw [← filter_isCall_landmarks, hfile.read.landmarks_eq, List.filter_append, filter_isCall_calls,
      filter_isCall_declarations hsound.isFunctionName, List.append_nil]
  · intro e he hsource htarget
    exact hforward _ _ ⟨List.mem_map_of_mem he, hsource, htarget⟩
  · intro n hn
    exact count_declaration hfile hsound.isFunctionName hsound.nodup_names (hsound.order_subset n hn)
  · intro l hl hdecl
    have hmark := mem_landmarks hl (Bool.or_eq_true_iff.mpr (Or.inr hdecl))
    rw [hfile.read.landmarks_eq, List.mem_append] at hmark
    rcases hmark with hcall | hdeclared
    · obtain ⟨n, _, he⟩ := List.mem_map.mp hcall
      rw [← isDeclaration_unindent, ← he, isDeclaration_callLine] at hdecl
      cases hdecl
    · obtain ⟨n, hn, he⟩ := List.mem_map.mp hdeclared
      exact ⟨n, (hsound.mem_order_iff n).mpr hn, he.symm⟩

/-- Two ids that give the same name, one of them with a line break and the head of a call in it. -/
def unruly : Graph := ⟨"w", "", none,
  [⟨"a_context_results_", "utility.delay", []⟩, ⟨"a\ncontext.results[", "*/ x", []⟩],
  [⟨"e", "a\ncontext.results[", "a_context_results_"⟩]⟩

theorem the_calls_of_unruly_ids :
    ∃ p main, (Plan.build unruly ⟨none, true, true, false, "UTC", "1"⟩).outcome = .ok p ∧
      (Entry.text p ⟨2026, 1, 1, 0, 0, 0, 0, none⟩).outcome = .ok main ∧
      ((Text.lines main).filter isCall).map unindent =
        ["context.results[\"a\\ncontext.results[\"] = execute_a_context_results__2(context);",
          "context.results[\"a_context_results_\"] = execute_a_context_results_(context);"] ∧
      ∀ n ∈ p.order, (Text.lines main).count (declaration n) = 1 := by
  have hrun : ∃ p, (Plan.build unruly ⟨none, true, true, false, "UTC", "1"⟩).outcome = .ok p ∧
      calls p =
        ["context.results[\"a\\ncontext.results[\"] = execute_a_context_results__2(context);",
          "context.results[\"a_context_results_\"] = execute_a_context_results_(context);"] ∧
      ∃ main, (Entry.text p ⟨2026, 1, 1, 0, 0, 0, 0, none⟩).outcome = .ok main :=
    ⟨_, rfl, rfl, _, rfl⟩
  obtain ⟨p, hplan, hcalls, main, hmain⟩ := hrun
  obtain ⟨_, _, hlines, _, _, _, hdeclared, _⟩ :=
    every_node_is_called_once_and_in_order hplan hmain
  exact ⟨p, main, hplan, hmain, hlines.trans hcalls, hdeclared⟩

end Flowscript
