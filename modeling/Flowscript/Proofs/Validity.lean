-- What the verdict on the structure of a graph promises. A graph passes
-- exactly where ids, types and the ends of edges are there and ids differ;
-- then its plan has every node, and the edges that are warned of are the ones
-- that the order leaves out.
import Flowscript.Proofs.Planning
import Flowscript.Verdict.Structure

namespace Flowscript

/-- The edge at a place is not among those that the order goes by. -/
def RunOrder.LeavesOut (ids : List String) (edges : List Link) (place : Nat) : Prop :=
  ∃ e, edges[place]? = some e ∧ e ∉ knownLinks ids.eraseDups edges

namespace Verdict

/-! ## Errors -/

theorem outcome_structural (g : Graph) : (structural g).outcome = .ok (onStructure g) := by
  unfold structural
  rw [Traced.outcome_bind, Traced.outcome_forEach_note .warning fun w => w]
  rfl

theorem structural_eq_ok {g : Graph} {verdict : Verdict}
    (h : (structural g).outcome = .ok verdict) : verdict = onStructure g := by
  rw [outcome_structural] at h
  exact (Except.ok.inj h).symm

theorem nodeErrors_eq_nil {place : Nat} {seen : List String} {n : Node} :
    nodeErrors place seen n = [] ↔ n.id ≠ "" ∧ n.id ∉ seen ∧ n.type ≠ "" := by
  unfold nodeErrors
  by_cases hid : n.id = "" <;> by_cases hseen : n.id ∈ seen <;> by_cases htype : n.type = "" <;>
    simp [hid, hseen, htype]

/-- Nodes pass where each has an id that was not there before it, and a type. -/
theorem nodesErrors_eq_nil {place : Nat} {seen : List String} {nodes : List Node} :
    nodesErrors place seen nodes = [] ↔
      (∀ n ∈ nodes, n.id ≠ "" ∧ n.id ∉ seen ∧ n.type ≠ "") ∧ (nodes.map Node.id).Nodup := by
  induction nodes generalizing place seen with
  | nil => simp [nodesErrors]
  | cons n rest ih =>
    rw [nodesErrors, List.append_eq_nil_iff, nodeErrors_eq_nil, ih, List.forall_mem_cons,
      List.map_cons, List.nodup_cons]
    simp only [List.mem_append, List.mem_singleton, List.mem_map]
    constructor
    · rintro ⟨hn, hrest, hnodup⟩
      refine ⟨⟨hn, fun m hm => ?_⟩, ?_, hnodup⟩
      · obtain ⟨hid, hseen, htype⟩ := hrest m hm
        exact ⟨hid, fun hmem => hseen (Or.inl hmem), htype⟩
      · rintro ⟨m, hm, he⟩
        exact (hrest m hm).2.1 (Or.inr he)
    · rintro ⟨⟨hn, hrest⟩, hnew, hnodup⟩
      refine ⟨hn, fun m hm => ?_, hnodup⟩
      obtain ⟨hid, hseen, htype⟩ := hrest m hm
      refine ⟨hid, ?_, htype⟩
      rintro (hmem | he)
      · exact hseen hmem
      · exact hnew ⟨m, hm, he⟩

theorem edgeErrors_eq_nil {place : Nat} {e : Edge} :
    edgeErrors place e = [] ↔ e.source ≠ "" ∧ e.target ≠ "" := by
  unfold edgeErrors
  by_cases hsource : e.source = "" <;> by_cases htarget : e.target = "" <;>
    simp [hsource, htarget]

theorem mem_findings {α : Type} {check : Nat → α → List String} {items : List α} {w : String} :
    w ∈ findings check items ↔ ∃ place a, items[place]? = some a ∧ w ∈ check place a := by
  unfold findings
  rw [List.mem_flatMap]
  constructor
  · rintro ⟨⟨a, place⟩, hmem, hw⟩
    exact ⟨place, a, List.mk_mem_zipIdx_iff_getElem?.mp hmem, hw⟩
  · rintro ⟨place, a, hget, hw⟩
    exact ⟨(a, place), List.mk_mem_zipIdx_iff_getElem?.mpr hget, hw⟩

theorem findings_edgeErrors_eq_nil {edges : List Edge} :
    findings edgeErrors edges = [] ↔ ∀ e ∈ edges, e.source ≠ "" ∧ e.target ≠ "" := by
  simp only [List.eq_nil_iff_forall_not_mem, mem_findings, not_exists, not_and]
  constructor
  · intro h e he
    obtain ⟨place, hget⟩ := List.mem_iff_getElem?.mp he
    exact edgeErrors_eq_nil.mp (List.eq_nil_iff_forall_not_mem.mpr fun w => h w place e hget)
  · intro h w place e hget
    rw [edgeErrors_eq_nil.mpr (h e (List.mem_of_getElem? hget))]
    exact List.not_mem_nil

theorem valid_onStructure (g : Graph) :
    (onStructure g).valid = true ↔
      (∀ n ∈ g.nodes, n.id ≠ "") ∧ (g.nodes.map Node.id).Nodup ∧ (∀ n ∈ g.nodes, n.type ≠ "") ∧
        ∀ e ∈ g.edges, e.source ≠ "" ∧ e.target ≠ "" := by
  show (nodesErrors 0 [] g.nodes ++ findings edgeErrors g.edges).isEmpty = true ↔ _
  rw [List.isEmpty_iff, List.append_eq_nil_iff, nodesErrors_eq_nil, findings_edgeErrors_eq_nil]
  constructor
  · rintro ⟨⟨hnodes, hnodup⟩, hedges⟩
    exact ⟨fun n hn => (hnodes n hn).1, hnodup, fun n hn => (hnodes n hn).2.2, hedges⟩
  · rintro ⟨hids, hnodup, htypes, hedges⟩
    exact ⟨⟨fun n hn => ⟨hids n hn, List.not_mem_nil, htypes n hn⟩, hnodup⟩, hedges⟩

/-! ## Warnings -/

/-- The warning of an end of the edge at a place. -/
def endWarning (place : Nat) (label id : String) : String :=
  s!"edges[{place}]: {label} node '{id}' not found (edge ignored)"

theorem mem_endWarnings {ids : List String} {place : Nat} {label id w : String} :
    w ∈ endWarnings ids place label id ↔
      id ≠ "" ∧ id ∉ ids ∧ w = endWarning place label id := by
  unfold endWarnings endWarning
  by_cases hid : id = "" <;> by_cases hknown : id ∈ ids <;> simp [hid, hknown]

theorem toList_endWarning (place : Nat) (label id : String) :
    ∃ rest, (endWarning place label id).toList =
      ['e', 'd', 'g', 'e', 's', '['] ++ (Nat.toDigits 10 place ++ ']' :: rest) := by
  refine ⟨": ".toList ++ label.toList ++ " node '".toList ++ id.toList ++
    "' not found (edge ignored)".toList, ?_⟩
  simp [endWarning, toString, Nat.toList_repr]

/-- The place can be read off the warning, whatever the label and the id are. -/
theorem place_of_endWarning {place place' : Nat} {label label' id id' : String}
    (h : endWarning place label id = endWarning place' label' id') : place = place' := by
  obtain ⟨rest, hrest⟩ := toList_endWarning place label id
  obtain ⟨rest', hrest'⟩ := toList_endWarning place' label' id'
  rw [h, hrest', List.append_cancel_left_eq] at hrest
  have hbracket : ∀ (rest : List Char) c, (']' :: rest).head? = some c → c.isDigit = false := by
    rintro rest c ⟨⟩
    rfl
  have hdigits := congrArg (fun cs => (cs.span Char.isDigit).1) hrest
  simp only [span_toDigits _ (hbracket _)] at hdigits
  exact (toDigits_injective hdigits).symm

/-- The warnings of nodes begin with another word. -/
theorem endWarning_notMem_nodeWarnings {place place' : Nat} {label id : String} {n : Node} :
    endWarning place label id ∉ nodeWarnings place' n := by
  intro h
  unfold nodeWarnings at h
  split at h
  · have heq := congrArg (fun s => s.toList.head?) (List.mem_singleton.mp h)
    obtain ⟨rest, hrest⟩ := toList_endWarning place label id
    simp [hrest, toString] at heq
  · cases h

/-- An edge is warned of where one of its ends is named but is no node. -/
theorem warned_iff {g : Graph} {place : Nat} :
    (∃ label id, endWarning place label id ∈ (onStructure g).warnings) ↔
      ∃ e, g.edges[place]? = some e ∧
        (e.source ≠ "" ∧ e.source ∉ g.nodes.map Node.id ∨
          e.target ≠ "" ∧ e.target ∉ g.nodes.map Node.id) := by
  have hwarnings : (onStructure g).warnings =
      findings nodeWarnings g.nodes ++ findings (edgeWarnings (g.nodes.map Node.id)) g.edges := rfl
  simp only [hwarnings, List.mem_append, mem_findings, edgeWarnings, mem_endWarnings]
  constructor
  · rintro ⟨label, id, ⟨place', n, _, hmem⟩ | ⟨place', e, hget, hmem⟩⟩
    · exact absurd hmem endWarning_notMem_nodeWarnings
    · rcases hmem with ⟨hne, hout, htext⟩ | ⟨hne, hout, htext⟩
      · exact ⟨e, place_of_endWarning htext ▸ hget, Or.inl ⟨hne, hout⟩⟩
      · exact ⟨e, place_of_endWarning htext ▸ hget, Or.inr ⟨hne, hout⟩⟩
  · rintro ⟨e, hget, ⟨hne, hout⟩ | ⟨hne, hout⟩⟩
    · exact ⟨"source", e.source, Or.inr ⟨place, e, hget, Or.inl ⟨hne, hout, rfl⟩⟩⟩
    · exact ⟨"target", e.target, Or.inr ⟨place, e, hget, Or.inr ⟨hne, hout, rfl⟩⟩⟩

theorem leavesOut_iff {g : Graph} {place : Nat} :
    RunOrder.LeavesOut (g.nodes.map Node.id) (Plan.links g) place ↔
      ∃ e, g.edges[place]? = some e ∧
        (e.source ∉ g.nodes.map Node.id ∨ e.target ∉ g.nodes.map Node.id) := by
  unfold RunOrder.LeavesOut Plan.links
  rw [List.getElem?_map]
  constructor
  · rintro ⟨link, hlink, hout⟩
    obtain ⟨e, hget, rfl⟩ := Option.map_eq_some_iff.mp hlink
    refine ⟨e, hget, ?_⟩
    by_contra hknown
    simp only [not_or, not_not] at hknown
    exact hout (RunOrder.precedes_knownLinks.mpr
      ⟨List.mem_map_of_mem (List.mem_of_getElem? hget), hknown.1, hknown.2⟩)
  · rintro ⟨e, hget, hout⟩
    refine ⟨(e.source, e.target), by rw [hget]; rfl, fun hmem => ?_⟩
    obtain ⟨_, hsource, htarget⟩ := RunOrder.precedes_knownLinks.mp hmem
    exact hout.elim (fun h => h hsource) (fun h => h htarget)

/-- A graph passes exactly where its ids are not empty and differ, and its types and the ends of its
edges are not empty. A plan of a graph that passes has all its nodes in their order, and the places of
the edges that are warned of are the places of the edges that the order leaves out. -/
theorem what_passes_is_planned_whole (g : Graph) :
    ∃ verdict, (structural g).outcome = .ok verdict ∧
      (verdict.valid = true ↔
        (∀ n ∈ g.nodes, n.id ≠ "") ∧ (g.nodes.map Node.id).Nodup ∧
          (∀ n ∈ g.nodes, n.type ≠ "") ∧ ∀ e ∈ g.edges, e.source ≠ "" ∧ e.target ≠ "") ∧
      (verdict.valid = true →
        (∀ c p, (Plan.build g c).outcome = .ok p →
          p.nodes.map PlannedNode.id = g.nodes.map Node.id) ∧
        ∀ place,
          (∃ label id : String, s!"edges[{place}]: {label} node '{id}' not found (edge ignored)" ∈
            verdict.warnings) ↔
          RunOrder.LeavesOut (g.nodes.map Node.id) (Plan.links g) place) := by
  refine ⟨_, outcome_structural g, valid_onStructure g, fun hvalid => ?_⟩
  obtain ⟨_, hnodup, _, hedges⟩ := (valid_onStructure g).mp hvalid
  refine ⟨fun c p hp => ?_, fun place => ?_⟩
  · rw [(Plan.sound_of_build hp).ids_eq, Plan.distinctNodes_of_nodup hnodup]
  · rw [leavesOut_iff]
    refine warned_iff.trans (exists_congr fun e => and_congr_right fun hget => ?_)
    obtain ⟨hsource, htarget⟩ := hedges e (List.mem_of_getElem? hget)
    simp [hsource, htarget]

/-- A chain with an edge to a node that looks like the text of a warning, and one from nowhere. -/
def looseChain : Graph := ⟨"w", "Loose", none,
  [⟨"b", "x", []⟩, ⟨"a", "utility.logger", []⟩],
  [⟨"1", "a", "b"⟩, ⟨"2", "b", "edges[0]: source node '"⟩, ⟨"3", "a", "b"⟩, ⟨"4", "c", "a"⟩]⟩

/-- The loose ends of a chain are warned of, and its nodes are planned. -/
theorem a_loose_chain_is_planned_whole :
    ∃ verdict, (structural looseChain).outcome = .ok verdict ∧ verdict.valid = true ∧
      (∃ p, (Plan.build looseChain (Options.withDefaults {} {})).outcome = .ok p ∧
        p.nodes.map PlannedNode.id = ["b", "a"]) ∧
      (∃ label id : String,
        s!"edges[{3}]: {label} node '{id}' not found (edge ignored)" ∈ verdict.warnings) ∧
      ¬ ∃ label id : String,
        s!"edges[{0}]: {label} node '{id}' not found (edge ignored)" ∈ verdict.warnings := by
  obtain ⟨verdict, hjudged, hpasses, hpromise⟩ := what_passes_is_planned_whole looseChain
  have hvalid : verdict.valid = true := hpasses.mpr (by simp [looseChain])
  obtain ⟨hplanned, hwarned⟩ := hpromise hvalid
  refine ⟨verdict, hjudged, hvalid, ⟨_, rfl, hplanned _ _ rfl⟩, (hwarned 3).mpr ?_, ?_⟩
  · exact ⟨("c", "a"), rfl, by decide⟩
  · rintro h
    obtain ⟨e, he, hout⟩ := (hwarned 0).mp h
    cases he
    exact hout (by decide)

end Verdict

end Flowscript
