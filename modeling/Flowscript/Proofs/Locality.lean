-- What the settings of one node can change in the main file. The function of
-- the node is written from them, and in the entry function they say whether
-- the run goes on where the node fails. Two graphs that differ in the
-- settings of one node have main files that agree on all other lines.
import Flowscript.Proofs.Script

namespace Flowscript

open Entry (nodeSteps callSteps aftermathSteps failureSteps handlerSteps entrySteps entryLines
  header narration)
open Recipe (code remark)

/-! ## Steps that vary in one part -/

/-- Behind the steps, writing that began at the indent `i` goes on at the indent `j`. -/
def Leads (i : Int) (steps : List Step) (j : Int) : Prop :=
  ((Sheet.empty i).takeAll steps).indent = j

theorem Leads.append {i j k : Int} {steps steps' : List Step} (h : Leads i steps j)
    (h' : Leads j steps' k) : Leads i (steps ++ steps') k := by
  unfold Leads at h h' ⊢
  rw [takeAll_append, indent_takeAll, h, h']

theorem leads_code (i : Int) (lines : List String) : Leads i (code lines) i := by
  unfold Leads
  rw [takeAll_code]
  rfl

theorem leads_narration (i : Int) (c : Choices) (lines : List String) :
    Leads i (narration c lines) i := by
  unfold narration
  split
  · exact leads_code i lines
  · rfl

/-- The lines of steps that are written at an indent. -/
def linesAt (i : Int) (steps : List Step) : List String :=
  ((Sheet.empty i).takeAll steps).lines false

theorem linesAt_append {i j : Int} {steps : List Step} (h : Leads i steps j) (steps' : List Step) :
    linesAt i (steps ++ steps') = linesAt i steps ++ linesAt j steps' := by
  unfold Leads at h
  unfold linesAt
  rw [lines_takeAll_append, h]

/-- Steps at the indent `i` that depend on something only in one part, which stands at the
indent `j`. -/
def Varies {α : Type} (i : Int) (whole : α → List Step) (j : Int) (part : α → List Step) : Prop :=
  ∃ front back, Leads i front j ∧ ∀ x, whole x = front ++ (part x ++ back)

section

variable {α : Type} {i j k : Int} {whole part : α → List Step}

theorem Varies.here (i : Int) (part : α → List Step) (back : List Step) :
    Varies i (fun x => part x ++ back) i part :=
  ⟨[], back, rfl, fun _ => rfl⟩

theorem Varies.behind {front : List Step} (h : Leads i front k) (h' : Varies k whole j part) :
    Varies i (fun x => front ++ whole x) j part := by
  obtain ⟨front', back, hlevel, hwhole⟩ := h'
  refine ⟨front ++ front', back, h.append hlevel, fun x => ?_⟩
  simp only [hwhole, List.append_assoc]

/-- Where the part always leads to one indent, it is also the only part of the lines that varies. -/
theorem Varies.lines (h : Varies i whole j part) (hpart : ∀ x, Leads j (part x) k) :
    ∃ before after, ∀ x, linesAt i (whole x) = before ++ linesAt j (part x) ++ after := by
  obtain ⟨front, back, hlevel, hwhole⟩ := h
  refine ⟨linesAt i front, linesAt k back, fun x => ?_⟩
  rw [hwhole, linesAt_append hlevel, linesAt_append (hpart x), List.append_assoc]

end

/-! ## The call of a node -/

/-- The lines of the entry function that call a node. -/
def callLines (n : PlannedNode) (c : Choices) : List String := linesAt 2 (nodeSteps n c)

/-- The lines of the call that tell whether the run goes on, where failures are handled. -/
def aftermathLines (n : PlannedNode) (c : Choices) : List String :=
  if c.includeErrorHandling then
    if n.continueOnError then ["      // continueOnError: carry on with the next node"]
    else ["      // continueOnError is false: abort the run", "      throw nodeError;"]
  else []

theorem leads_aftermathSteps (i : Int) (n : PlannedNode) : Leads i (aftermathSteps n) i := by
  unfold aftermathSteps
  split
  · rfl
  · rfl

theorem leads_callSteps (i : Int) (n : PlannedNode) (c : Choices) : Leads i (callSteps n c) i :=
  (leads_code i _).append (leads_narration i c _)

theorem leads_failureSteps (i : Int) (n : PlannedNode) : Leads i (failureSteps n) i :=
  (leads_code i _).append (leads_aftermathSteps i n)

theorem leads_nodeSteps (n : PlannedNode) (c : Choices) : Leads 2 (nodeSteps n c) 2 := by
  have hdeeper : Leads 2 [.deeper] 3 := rfl
  have hback : Leads 3 [.back] 2 := rfl
  unfold nodeSteps
  refine Leads.append (Leads.append rfl (leads_narration 2 c _)) ?_
  split
  · refine .append (.append (.append ?_ (leads_failureSteps 3 n)) hback) (leads_code 2 _)
    refine .append (.append (.append ?_ hback) (leads_code 2 _)) hdeeper
    exact ((leads_code 2 _).append hdeeper).append (leads_callSteps 3 n c)
  · exact leads_callSteps 2 n c

theorem linesAt_aftermathSteps (n : PlannedNode) :
    linesAt 3 (aftermathSteps n) =
      if n.continueOnError then ["      // continueOnError: carry on with the next node"]
      else ["      // continueOnError is false: abort the run", "      throw nodeError;"] := by
  unfold aftermathSteps
  split
  · decide
  · decide

section

variable (id tag name : String) (c : Choices)

theorem varies_nodeSteps (h : c.includeErrorHandling = true) :
    Varies 2 (fun config => nodeSteps ⟨id, tag, name, config⟩ c) 3
      (fun config => aftermathSteps ⟨id, tag, name, config⟩) := by
  have hcall : ∀ config, callSteps ⟨id, tag, name, config⟩ c = callSteps ⟨id, tag, name, []⟩ c :=
    fun _ => rfl
  unfold nodeSteps failureSteps
  simp only [h, if_true, List.append_assoc, hcall]
  refine .behind (k := 2) rfl ?_
  refine .behind (leads_narration 2 c _) ?_
  refine .behind (leads_code 2 _) ?_
  refine .behind (k := 3) rfl ?_
  refine .behind (leads_callSteps 3 _ c) ?_
  refine .behind (k := 2) rfl ?_
  refine .behind (leads_code 2 _) ?_
  refine .behind (k := 3) rfl ?_
  refine .behind (leads_code 3 _) ?_
  exact .here 3 (fun config => aftermathSteps ⟨id, tag, name, config⟩) _

/-- The settings of a node change no other lines of its call. -/
theorem callLines_eq :
    ∃ opening closing, ∀ config, callLines ⟨id, tag, name, config⟩ c =
      opening ++ aftermathLines ⟨id, tag, name, config⟩ c ++ closing := by
  unfold aftermathLines
  by_cases h : c.includeErrorHandling = true
  · obtain ⟨opening, closing, hlines⟩ :=
      (varies_nodeSteps id tag name c h).lines fun config => leads_aftermathSteps 3 _
    refine ⟨opening, closing, fun config => ?_⟩
    rw [if_pos h, ← linesAt_aftermathSteps]
    exact hlines config
  · refine ⟨callLines ⟨id, tag, name, []⟩ c, [], fun config => ?_⟩
    rw [if_neg h, List.append_nil, List.append_nil]
    unfold callLines nodeSteps
    rw [if_neg h, if_neg h]
    rfl

end

/-- The entry function has the settings of a node from the lines of its call alone. -/
theorem varies_entrySteps (p : Plan) (front back : List PlannedNode) (id tag name : String) :
    Varies 0 (fun config => entrySteps
        { p with order := front ++ ⟨id, tag, name, config⟩ :: back }) 2
      (fun config => nodeSteps ⟨id, tag, name, config⟩ p.choices) := by
  have hhandler : ∀ order, handlerSteps { p with order := order } = handlerSteps p := fun _ => rfl
  have hfront : Leads 2 (front.flatMap fun n => code [""] ++ nodeSteps n p.choices) 2 := by
    induction front with
    | nil => rfl
    | cons n rest ih =>
      rw [List.flatMap_cons]
      exact ((leads_code 2 _).append (leads_nodeSteps n p.choices)).append ih
  have hsome : ∀ config, (front ++ (⟨id, tag, name, config⟩ : PlannedNode) :: back).isEmpty =
      false := by simp
  unfold entrySteps
  simp only [hhandler, hsome, List.flatMap_append, List.flatMap_cons, List.append_assoc,
    Bool.false_eq_true, if_false, List.nil_append]
  refine .behind (leads_code 0 _) ?_
  refine .behind (k := 1) rfl ?_
  refine .behind (leads_code 1 _) ?_
  refine .behind (leads_narration 1 _ _) ?_
  refine .behind (leads_code 1 _) ?_
  refine .behind (k := 2) rfl ?_
  refine .behind (leads_narration 2 _ _) ?_
  refine .behind hfront ?_
  refine .behind (leads_code 2 _) ?_
  exact .here 2 (fun config => nodeSteps ⟨id, tag, name, config⟩ p.choices) _

/-! ## The plan of a node -/

/-- The graphs are the same but for the settings of a node. -/
def DifferInData (id : String) (g g' : Graph) : Prop :=
  ∃ before after type data data', g.nodes = before ++ ⟨id, type, data⟩ :: after ∧
    g' = { g with nodes := before ++ ⟨id, type, data'⟩ :: after }

/-- A relation that settles the second item from the first takes lists that differ in one place to
lists that differ in one place. -/
theorem forall₂_apart {α β : Type} {R : α → β → Prop} (hR : ∀ a b b', R a b → R a b' → b = b')
    {xs ys : List α} {x x' : α} {bs bs' : List β} (h : List.Forall₂ R (xs ++ x :: ys) bs)
    (h' : List.Forall₂ R (xs ++ x' :: ys) bs') :
    ∃ front b b' back, R x b ∧ R x' b' ∧ bs = front ++ b :: back ∧ bs' = front ++ b' :: back := by
  induction xs generalizing bs bs' with
  | nil =>
    obtain ⟨b, back, hb, hback, rfl⟩ := List.forall₂_cons_left_iff.mp h
    obtain ⟨b', back', hb', hback', rfl⟩ := List.forall₂_cons_left_iff.mp h'
    have hsame : back = back' :=
      List.right_unique_forall₂' (fun a b b' => hR a b b') hback hback'
    subst hsame
    exact ⟨[], b, b', back, hb, hb', rfl, rfl⟩
  | cons a rest ih =>
    obtain ⟨c, cs, hc, hrest, rfl⟩ := List.forall₂_cons_left_iff.mp h
    obtain ⟨c', cs', hc', hrest', rfl⟩ := List.forall₂_cons_left_iff.mp h'
    obtain ⟨front, b, b', back, hb, hb', rfl, rfl⟩ := ih hrest hrest'
    rw [hR a c c' hc hc']
    exact ⟨c' :: front, b, b', back, hb, hb', rfl, rfl⟩

theorem zip_apart {α β : Type} {xs : List α} {names : List β} (h : xs.length < names.length)
    (ys : List α) (x x' : α) :
    ∃ front name back, (xs ++ x :: ys).zip names = front ++ (x, name) :: back ∧
      (xs ++ x' :: ys).zip names = front ++ (x', name) :: back := by
  induction xs generalizing names with
  | nil =>
    obtain ⟨name, rest, rfl⟩ := List.exists_cons_of_length_pos h
    exact ⟨[], name, ys.zip rest, rfl, rfl⟩
  | cons a more ih =>
    obtain ⟨first, rest, rfl⟩ := List.exists_cons_of_length_pos (Nat.zero_lt_of_lt h)
    obtain ⟨front, name, back, hx, hx'⟩ := ih (Nat.lt_of_succ_lt_succ h)
    refine ⟨(a, first) :: front, name, back, ?_, ?_⟩
    · simp [hx]
    · simp [hx']

namespace Plan

/-- The first node with an id is found behind nodes that do not have it. -/
theorem find?_middle {front back : List PlannedNode} {n : PlannedNode}
    (hfront : n.id ∉ front.map PlannedNode.id) :
    ((front ++ n :: back).find? fun m => m.id == n.id) = some n := by
  have hnone : (front.find? fun m => m.id == n.id) = none := by
    apply List.find?_eq_none.mpr
    intro m hm he
    exact hfront (List.mem_map.mpr ⟨m, hm, by simpa using he⟩)
  simp [List.find?_append, hnone]

/-- Nodes that differ in one place are run in orders that differ in one place. -/
theorem order_apart {front back : List PlannedNode} {n n' : PlannedNode} {ids : List String}
    (hid : n.id = n'.id) (hnodup : ids.Nodup) (hmem : n.id ∈ ids)
    (hfront : n.id ∉ front.map PlannedNode.id) :
    ∃ before after,
      (ids.filterMap fun id => (front ++ n :: back).find? fun m => m.id == id) =
        before ++ n :: after ∧
      (ids.filterMap fun id => (front ++ n' :: back).find? fun m => m.id == id) =
        before ++ n' :: after := by
  have hother : ∀ id, id ≠ n.id → ((front ++ n :: back).find? fun m => m.id == id) =
      (front ++ n' :: back).find? fun m => m.id == id := by
    intro id hne
    have hno : (n.id == id) = false := by simpa using hne.symm
    have hno' : (n'.id == id) = false := by rw [← hid, hno]
    simp [List.find?_append, hno, hno']
  have hself : ((front ++ n :: back).find? fun m => m.id == n.id) = some n := find?_middle hfront
  have hself' : ((front ++ n' :: back).find? fun m => m.id == n.id) = some n' := by
    rw [hid] at hfront ⊢
    exact find?_middle hfront
  obtain ⟨before, after, rfl⟩ := List.append_of_mem hmem
  obtain ⟨hbefore, hafter⟩ : n.id ∉ before ∧ n.id ∉ after := by
    have hnew := (List.nodup_middle.mp hnodup).notMem
    simpa using hnew
  have hsame : ∀ ids : List String, n.id ∉ ids →
      (ids.filterMap fun id => (front ++ n :: back).find? fun m => m.id == id) =
        ids.filterMap fun id => (front ++ n' :: back).find? fun m => m.id == id :=
    fun ids hnew => List.filterMap_congr fun id hmem => hother id fun he => hnew (he ▸ hmem)
  refine ⟨_, _, by rw [List.filterMap_append, List.filterMap_cons, hself], ?_⟩
  rw [List.filterMap_append, List.filterMap_cons, hself', hsame before hbefore, hsame after hafter]

/-- Nodes that differ in the settings of one of them are planned alike but for that one, whose planned
node keeps its id, tag and name. -/
theorem nodes_apart {g : Graph} {c : Choices} {before after : List Node} {id type : String}
    {data data' : Fields} {names : List String} {planned planned' : List PlannedNode}
    (hlength : before.length < names.length)
    (h : List.Forall₂ (fun e n => planNode g c e.1 e.2 = .ok n)
      ((before ++ ⟨id, type, data⟩ :: after).zip names) planned)
    (h' : List.Forall₂ (fun e n => planNode g c e.1 e.2 = .ok n)
      ((before ++ ⟨id, type, data'⟩ :: after).zip names) planned') :
    ∃ (name : String) (config config' : Fields) (front back : List PlannedNode),
      planned = front ++ ⟨id, type, name, config⟩ :: back ∧
      planned' = front ++ ⟨id, type, name, config'⟩ :: back := by
  obtain ⟨pairs, name, pairs', hzip, hzip'⟩ :=
    zip_apart hlength after (⟨id, type, data⟩ : Node) ⟨id, type, data'⟩
  rw [hzip] at h
  rw [hzip'] at h'
  obtain ⟨front, n, n', back, hn, hn', hfront, hfront'⟩ :=
    forall₂_apart (fun e m m' hm hm' => Except.ok.inj (hm.symm.trans hm')) h h'
  obtain ⟨config, _, rfl⟩ := planNode_eq_ok hn
  obtain ⟨config', _, rfl⟩ := planNode_eq_ok hn'
  exact ⟨name, config, config', front, back, hfront, hfront'⟩

/-- The plans of graphs that differ in the settings of a node have all in common but the resolved
settings of that node. -/
theorem plans_apart {g g' : Graph} {c : Choices} {p p' : Plan} {id : String}
    (hdiffer : DifferInData id g g') (hunique : (g.nodes.map Node.id).Nodup)
    (hplan : (Plan.build g c).outcome = .ok p) (hplan' : (Plan.build g' c).outcome = .ok p') :
    ∃ (tag name : String) (config config' : Fields) (front back before after : List PlannedNode),
      p.nodes = front ++ ⟨id, tag, name, config⟩ :: back ∧
      p'.nodes = front ++ ⟨id, tag, name, config'⟩ :: back ∧
      p.order = before ++ ⟨id, tag, name, config⟩ :: after ∧
      p'.order = before ++ ⟨id, tag, name, config'⟩ :: after ∧
      id ∉ front.map PlannedNode.id := by
  obtain ⟨before, after, type, data, data', hnodes, rfl⟩ := hdiffer
  have hsame : (before ++ (⟨id, type, data'⟩ : Node) :: after).map Node.id =
      (before ++ (⟨id, type, data⟩ : Node) :: after).map Node.id := by simp
  have hplanned := planned_of_build hplan
  obtain ⟨ids, hids, horder⟩ := order_of_build hplan
  have hnodup := (sound_of_build hplan).nodup_ids
  obtain ⟨ids', hids', horder'⟩ := order_of_build hplan'
  rw [hnodes] at hunique hids
  have hlinks : RunOrder.order ((before ++ (⟨id, type, data⟩ : Node) :: after).map Node.id)
      (links g) = .ok ids' := hsame ▸ hids'
  cases hids.symm.trans hlinks
  obtain ⟨hidsNodup, hidsMem, _⟩ := RunOrder.order_forward hids
  have hplanned' : List.Forall₂ (fun e n => planNode g c e.1 e.2 = .ok n)
      ((before ++ (⟨id, type, data'⟩ : Node) :: after).zip
        (functionNames ((before ++ (⟨id, type, data⟩ : Node) :: after).map Node.id))) p'.nodes := by
    have hall := planned_of_build hplan'
    dsimp only at hall
    rw [distinctNodes_of_nodup (hsame ▸ hunique), hsame] at hall
    exact hall
  rw [hnodes, distinctNodes_of_nodup hunique] at hplanned
  have hlength : before.length <
      (functionNames ((before ++ (⟨id, type, data⟩ : Node) :: after).map Node.id)).length := by
    simp [functionNames, length_nameAll]
  obtain ⟨name, config, config', front, back, hfront, hfront'⟩ :=
    nodes_apart hlength hplanned hplanned'
  have hnew : id ∉ front.map PlannedNode.id := by
    rw [hfront, List.map_append, List.map_cons] at hnodup
    have hnotMem := (List.nodup_middle.mp hnodup).notMem
    exact fun hmem => hnotMem (List.mem_append_left _ hmem)
  rw [hfront] at horder
  rw [hfront'] at horder'
  obtain ⟨first, last, hrun, hrun'⟩ :=
    @order_apart front back ⟨id, type, name, config⟩ ⟨id, type, name, config'⟩ ids rfl hidsNodup
      ((hidsMem id).mpr (by simp)) hnew
  exact ⟨type, name, config, config', front, back, first, last, hfront, hfront',
    horder.trans hrun, horder'.trans hrun', hnew⟩

end Plan

/-! ## The main file -/

theorem PlannedNode.continueOnError_eq_false {n : PlannedNode} :
    n.continueOnError = false ↔ n.config.get? "continueOnError" = some (.bool false) := by
  unfold continueOnError
  split
  · rename_i h
    simp [h]
  · rename_i h
    simpa using h

theorem aftermathLines_ne_iff {n n' : PlannedNode} {c : Choices} :
    aftermathLines n c ≠ aftermathLines n' c ↔ c.includeErrorHandling = true ∧
      Xor (n.config.get? "continueOnError" = some (.bool false))
        (n'.config.get? "continueOnError" = some (.bool false)) := by
  unfold aftermathLines Xor
  rw [← PlannedNode.continueOnError_eq_false, ← PlannedNode.continueOnError_eq_false]
  cases c.includeErrorHandling with
  | false => simp
  | true => cases n.continueOnError <;> cases n'.continueOnError <;> simp

/-- Plans of one graph that differ in the settings of a node have one header, and entry functions
that differ in the call of the node. -/
theorem entry_apart {p p' : Plan} {nodes : List Node} {id tag name : String}
    {config config' : Fields} {first last : List PlannedNode}
    (hgraph : p'.graph = { p.graph with nodes := nodes }) (hchoices : p'.choices = p.choices)
    (horder : p.order = first ++ ⟨id, tag, name, config⟩ :: last)
    (horder' : p'.order = first ++ ⟨id, tag, name, config'⟩ :: last) (started : Moment) :
    header p' started = header p started ∧ ∃ before after,
      entryLines p = before ++ callLines ⟨id, tag, name, config⟩ p.choices ++ after ∧
      entryLines p' = before ++ callLines ⟨id, tag, name, config'⟩ p.choices ++ after := by
  obtain ⟨before, after, hlines⟩ := (varies_entrySteps p first last id tag name).lines
    fun config => leads_nodeSteps _ p.choices
  obtain ⟨graph, choices, planned, order⟩ := p
  obtain ⟨graph', choices', planned', order'⟩ := p'
  dsimp only at hgraph hchoices horder horder' hlines
  subst hgraph hchoices horder horder'
  exact ⟨rfl, before, after, hlines config, hlines config'⟩

/-- Two graphs that differ in the settings of one node have main files with the same lines but for
two blocks: the function of the node, and in the entry function the call of the node. The calls differ
at most in the lines that tell whether the run goes on, and they do just where failures are handled
and only one of the two resolved configurations stops the run. -/
theorem the_settings_of_a_node_stay_in_its_own_blocks {g g' : Graph} {c : Choices} {p p' : Plan}
    {started : Moment} {main main' id : String} (hdiffer : DifferInData id g g')
    (hunique : (g.nodes.map Node.id).Nodup)
    (hplan : (Plan.build g c).outcome = .ok p) (hplan' : (Plan.build g' c).outcome = .ok p')
    (hmain : (Entry.text p started).outcome = .ok main)
    (hmain' : (Entry.text p' started).outcome = .ok main') :
    ∃ n n' function function', p.node? id = some n ∧ p'.node? id = some n' ∧
      (NodeFunction.build n c).outcome = .ok function ∧
      (NodeFunction.build n' c).outcome = .ok function' ∧
      (∃ before after opening closing head between tail,
        entryLines p = before ++ callLines n c ++ after ∧
        entryLines p' = before ++ callLines n' c ++ after ∧
        callLines n c = opening ++ aftermathLines n c ++ closing ∧
        callLines n' c = opening ++ aftermathLines n' c ++ closing ∧
        Text.splitAt '\n' main =
          head ++ entryLines p ++ between ++ function.lines false ++ tail ∧
        Text.splitAt '\n' main' =
          head ++ entryLines p' ++ between ++ function'.lines false ++ tail) ∧
      (callLines n c ≠ callLines n' c ↔ c.includeErrorHandling = true ∧
        Xor (n.config.get? "continueOnError" = some (.bool false))
          (n'.config.get? "continueOnError" = some (.bool false))) := by
  obtain ⟨tag, name, config, config', front, back, first, last, hnodes, hnodes', horder, horder',
    hnew⟩ := Plan.plans_apart hdiffer hunique hplan hplan'
  obtain ⟨hgraph, rfl⟩ := Plan.graph_of_build hplan
  obtain ⟨hgraph', hchoices⟩ := Plan.graph_of_build hplan'
  obtain ⟨functions, hbuilt, rfl⟩ := Lexer.text_eq_ok hmain
  obtain ⟨functions', hbuilt', rfl⟩ := Lexer.text_eq_ok hmain'
  have hcut := Text.splitAt_joinLines_feed (by simp [header])
    (Lexer.oneLine_main (Plan.sound_of_build hplan) hbuilt started)
  have hcut' := Text.splitAt_joinLines_feed (by simp [header])
    (Lexer.oneLine_main (Plan.sound_of_build hplan') hbuilt' started)
  rw [hnodes] at hbuilt
  rw [hnodes', hchoices] at hbuilt'
  obtain ⟨sheets, function, function', sheets', hfunction, hfunction', rfl, rfl⟩ :=
    forall₂_apart (fun n s s' hs hs' => Except.ok.inj (hs.symm.trans hs')) hbuilt hbuilt'
  obtain ⟨_, _, _, _, _, _, hg'⟩ := hdiffer
  obtain ⟨hheader, before, after, hentry, hentry'⟩ :=
    entry_apart (by rw [hgraph', hg', hgraph]) hchoices horder horder' started
  obtain ⟨opening, closing, hcalls⟩ := callLines_eq id tag name p.choices
  refine ⟨⟨id, tag, name, config⟩, ⟨id, tag, name, config'⟩, function, function', ?_, ?_, hfunction,
    hfunction', ⟨before, after, opening, closing, header p started,
      sheets.flatMap (fun sheet => "" :: sheet.lines false) ++ [""],
      sheets'.flatMap (fun sheet => "" :: sheet.lines false) ++ [""], hentry, hentry', hcalls config,
      hcalls config', ?_, ?_⟩, ?_⟩
  · unfold Plan.node?
    rw [hnodes]
    exact Plan.find?_middle (n := ⟨id, tag, name, config⟩) hnew
  · unfold Plan.node?
    rw [hnodes']
    exact Plan.find?_middle (n := ⟨id, tag, name, config'⟩) hnew
  · rw [hcut]
    simp
  · rw [hcut', hheader]
    simp
  · have hne : callLines ⟨id, tag, name, config⟩ p.choices ≠
        callLines ⟨id, tag, name, config'⟩ p.choices ↔
        aftermathLines ⟨id, tag, name, config⟩ p.choices ≠
          aftermathLines ⟨id, tag, name, config'⟩ p.choices := by
      rw [hcalls, hcalls]
      simp
    exact hne.trans aftermathLines_ne_iff

/-- A request between a trigger and a line of the log; its settings are open. -/
def request (data : Fields) : Graph := ⟨"w", "Request", none,
  [⟨"t", "trigger.webhook", []⟩, ⟨"r", "action.http.request", data⟩, ⟨"l", "utility.logger", []⟩],
  [⟨"1", "t", "r"⟩, ⟨"2", "r", "l"⟩]⟩

/-- The choices under which the request is planned. -/
def requestChoices : Choices := ⟨none, true, true, false, "UTC", "1"⟩

/-- The plan of the request, where nothing is left to resolve in its settings. -/
def requestPlan (data config : Fields) : Plan :=
  let nodes := [⟨"t", "trigger.webhook", "execute_t", []⟩,
    ⟨"r", "action.http.request", "execute_r", config⟩, ⟨"l", "utility.logger", "execute_l", []⟩]
  ⟨request data, requestChoices, nodes, nodes⟩

/-- A line break in an address stays in the function of the node, and that one of them stops the run
shows in its call. -/
theorem a_request_that_stops_the_run_shows_in_two_blocks :
    ∃ p p' main main', (Plan.build (request [("url", .text "https://a\n\x7d")])
        ⟨none, true, true, false, "UTC", "1"⟩).outcome = .ok p ∧
      (Plan.build (request [("url", .text "\x7b\x7bworkflow.name\x7d\x7d"),
        ("continueOnError", .bool false)]) ⟨none, true, true, false, "UTC", "1"⟩).outcome = .ok p' ∧
      (Entry.text p ⟨2026, 1, 1, 0, 0, 0, 0, none⟩).outcome = .ok main ∧
      (Entry.text p' ⟨2026, 1, 1, 0, 0, 0, 0, none⟩).outcome = .ok main' ∧
      ∃ head between tail function function',
        Text.splitAt '\n' main =
          head ++ ["      // continueOnError: carry on with the next node"] ++ between ++ function ++
            tail ∧
        Text.splitAt '\n' main' =
          head ++ ["      // continueOnError is false: abort the run", "      throw nodeError;"] ++
            between ++ function' ++ tail := by
  obtain ⟨p, n, hplan, hn, hgoes, main, hmain⟩ : ∃ p n,
      (Plan.build (request [("url", .text "https://a\n\x7d")]) requestChoices).outcome = .ok p ∧
      p.node? "r" = some n ∧ n.continueOnError = true ∧
      ∃ main, (Entry.text p ⟨2026, 1, 1, 0, 0, 0, 0, none⟩).outcome = .ok main :=
    ⟨requestPlan [("url", .text "https://a\n\x7d")] [("url", .text "https://a\n\x7d")], _, rfl, rfl,
      rfl, _, rfl⟩
  obtain ⟨p', n', hplan', hn', hstops, main', hmain'⟩ : ∃ p' n',
      (Plan.build (request [("url", .text "\x7b\x7bworkflow.name\x7d\x7d"),
        ("continueOnError", .bool false)]) requestChoices).outcome = .ok p' ∧
      p'.node? "r" = some n' ∧ n'.continueOnError = false ∧
      ∃ main', (Entry.text p' ⟨2026, 1, 1, 0, 0, 0, 0, none⟩).outcome = .ok main' :=
    ⟨requestPlan [("url", .text "\x7b\x7bworkflow.name\x7d\x7d"), ("continueOnError", .bool false)]
      [("url", .text "Request"), ("continueOnError", .bool false)], _, rfl, rfl, rfl, _, rfl⟩
  have hdiffer : DifferInData "r" (request [("url", .text "https://a\n\x7d")])
      (request [("url", .text "\x7b\x7bworkflow.name\x7d\x7d"), ("continueOnError", .bool false)]) :=
    ⟨[⟨"t", "trigger.webhook", []⟩], [⟨"l", "utility.logger", []⟩], _, _, _, rfl, rfl⟩
  obtain ⟨m, m', function, function', hm, hm', -, -, ⟨before, after, opening, closing, head, between,
      tail, hentry, hentry', hcall, hcall', hlines, hlines'⟩, -⟩ :=
    the_settings_of_a_node_stay_in_its_own_blocks hdiffer (by decide) hplan hplan' hmain hmain'
  obtain rfl : n = m := Option.some.inj (hn.symm.trans hm)
  obtain rfl : n' = m' := Option.some.inj (hn'.symm.trans hm')
  refine ⟨p, p', main, main', hplan, hplan', hmain, hmain', head ++ before ++ opening,
    closing ++ after ++ between, tail, function.lines false, function'.lines false, ?_, ?_⟩
  · rw [hlines, hentry, hcall, aftermathLines, hgoes]
    simp [requestChoices]
  · rw [hlines', hentry', hcall', aftermathLines, hstops]
    simp [requestChoices]

end Flowscript
