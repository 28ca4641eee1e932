-- What a plan promises: every id of the graph has one planned node, the
-- function names are distinct identifiers with a fixed start, and the nodes
-- run in an order of the graph.
import Flowscript.Plan.Basic
import Flowscript.Proofs.Characters
import Flowscript.Proofs.Journal
import Flowscript.Proofs.RunOrder
import Mathlib.Data.List.Perm.Subperm
import Mathlib.Data.List.Nodup

namespace Flowscript

/-! ## Function names -/

/-- The name of the function of a node: name characters behind a fixed start. -/
def IsFunctionName (name : String) : Prop :=
  ∃ stem, name = "execute_" ++ stem ∧ MadeOf isNameChar stem

theorem IsFunctionName.inert {name : String} (h : IsFunctionName name) : Inert name := by
  obtain ⟨stem, rfl, hstem⟩ := h
  exact Inert.append (by decide) fun c hc => isInert_of_isNameChar (hstem c hc)

theorem isFunctionName_baseName (id : String) : IsFunctionName (baseName id) :=
  ⟨safeIdentifier id, rfl, madeOf_safeIdentifier id⟩

/-- A function name for an id: behind the fixed start stand the safe characters of the id and maybe
more, at least one in all. -/
def NamedFor (id name : String) : Prop :=
  ∃ tail, name = "execute_" ++ (safeIdentifier id ++ tail) ∧ safeIdentifier id ≠ "" ∧
    MadeOf isNameChar (safeIdentifier id ++ tail)

theorem NamedFor.isFunctionName {id name : String} (h : NamedFor id name) :
    IsFunctionName name := by
  obtain ⟨tail, hname, _, hchars⟩ := h
  exact ⟨_, hname, hchars⟩

theorem safeIdentifier_ne_empty (id : String) : safeIdentifier id ≠ "" := by
  unfold safeIdentifier
  split
  · decide
  · rename_i hid
    intro he
    apply hid
    have hlist := congrArg String.toList he
    rw [String.toList_ofList] at hlist
    exact String.toList_eq_nil_iff.mp (List.map_eq_nil_iff.mp hlist)

namespace Plan

/-- A base name with a number behind it. -/
def numbered (base : String) (k : Nat) : String := s!"{base}_{k + 2}"

theorem toList_numbered (base : String) (k : Nat) :
    (numbered base k).toList = base.toList ++ '_' :: Nat.toDigits 10 (k + 2) := by
  have happend : numbered base k = base ++ "_" ++ toString (k + 2) := by
    simp [numbered, toString]
  rw [happend, Nat.toString_eq_repr]
  simp [Nat.toList_repr]

theorem numbered_injective (base : String) : Function.Injective (numbered base) := by
  intro a b h
  have hdigits : Nat.toDigits 10 (a + 2) = Nat.toDigits 10 (b + 2) := by
    have hlist := congrArg String.toList h
    rw [toList_numbered, toList_numbered, List.append_cancel_left_eq] at hlist
    exact (List.cons.inj hlist).2
  exact Nat.add_right_cancel (toDigits_injective hdigits)

theorem numbered_ne_base (base : String) (k : Nat) : numbered base k ≠ base := by
  intro h
  have hlength := congrArg (fun s => s.toList.length) h
  simp [toList_numbered] at hlength

theorem nodup_candidates (base : String) (count : Nat) : (candidates base count).Nodup := by
  refine List.nodup_cons.mpr ⟨?_, List.nodup_range.map (numbered_injective base)⟩
  intro h
  obtain ⟨k, _, hk⟩ := List.mem_map.mp h
  exact numbered_ne_base base k hk

/-- A free name is not taken: there are more candidates than taken names. -/
theorem freeName_notMem (taken : List String) (base : String) : freeName taken base ∉ taken := by
  unfold freeName
  cases hfind : (candidates base taken.length).find? fun name => !taken.contains name with
  | some name => simpa using List.find?_some hfind
  | none =>
    have hsub : candidates base taken.length ⊆ taken := by
      intro name hname
      simpa using List.find?_eq_none.mp hfind name hname
    have hlength := ((nodup_candidates base taken.length).subperm hsub).length_le
    simp only [candidates, List.length_cons, List.length_map, List.length_range] at hlength
    omega

theorem freeName_cases (taken : List String) (base : String) :
    freeName taken base = base ∨ ∃ k, freeName taken base = numbered base k := by
  unfold freeName
  cases hfind : (candidates base taken.length).find? fun name => !taken.contains name with
  | none => exact Or.inl rfl
  | some name =>
    rcases List.mem_cons.mp (List.mem_of_find?_eq_some hfind) with rfl | hname
    · exact Or.inl rfl
    · obtain ⟨k, _, rfl⟩ := List.mem_map.mp hname
      exact Or.inr ⟨k, rfl⟩

theorem namedFor_freeName (taken : List String) (id : String) :
    NamedFor id (freeName taken (baseName id)) := by
  have hchars := madeOf_safeIdentifier id
  have hne := safeIdentifier_ne_empty id
  rcases freeName_cases taken (baseName id) with hname | ⟨k, hname⟩
  · refine ⟨"", ?_, hne, ?_⟩
    · rw [hname, String.append_empty]
      rfl
    · rwa [String.append_empty]
  · have hnumber : MadeOf isNameChar ("_" ++ toString (k + 2)) :=
      MadeOf.append (by decide) (madeOf_digits (fun _ => isNameChar_of_isDigit) _)
    refine ⟨"_" ++ toString (k + 2), ?_, hne, hchars.append hnumber⟩
    rw [hname]
    simp [numbered, baseName, toString, String.append_assoc]

/-- Names given in turn are distinct, and none of them was taken before. -/
theorem nameAll_fresh (taken ids : List String) :
    (nameAll taken ids).Nodup ∧ ∀ name ∈ nameAll taken ids, name ∉ taken := by
  induction ids generalizing taken with
  | nil => simp [nameAll]
  | cons id rest ih =>
    obtain ⟨hnodup, hfresh⟩ := ih (taken ++ [freeName taken (baseName id)])
    simp only [nameAll, List.nodup_cons, List.mem_cons, forall_eq_or_imp]
    refine ⟨⟨?_, hnodup⟩, freeName_notMem _ _, fun name hname hmem => ?_⟩
    · intro hmem
      exact hfresh _ hmem (by simp)
    · exact hfresh name hname (by simp [hmem])

theorem isFunctionName_of_mem_nameAll {taken ids : List String} {name : String}
    (h : name ∈ nameAll taken ids) : IsFunctionName name := by
  induction ids generalizing taken with
  | nil => cases h
  | cons id rest ih =>
    rcases List.mem_cons.mp h with rfl | h
    · exact (namedFor_freeName taken id).isFunctionName
    · exact ih h

theorem length_nameAll (taken ids : List String) : (nameAll taken ids).length = ids.length := by
  induction ids generalizing taken with
  | nil => rfl
  | cons id rest ih => simp [nameAll, ih]

/-! ## Planned nodes -/

theorem nodup_distinctNodes (nodes : List Node) : ((distinctNodes nodes).map Node.id).Nodup := by
  induction nodes with
  | nil => simp [distinctNodes]
  | cons n rest ih =>
    simp only [distinctNodes, List.map_cons, List.nodup_cons]
    refine ⟨?_, ih.sublist (List.filter_sublist.map _)⟩
    intro h
    obtain ⟨m, hm, he⟩ := List.mem_map.mp h
    simp [he] at hm

theorem mem_distinctNodes (nodes : List Node) (id : String) :
    id ∈ (distinctNodes nodes).map Node.id ↔ id ∈ nodes.map Node.id := by
  induction nodes with
  | nil => simp [distinctNodes]
  | cons n rest ih =>
    simp only [distinctNodes, List.map_cons, List.mem_cons, List.mem_map, List.mem_filter] at ih ⊢
    by_cases hid : id = n.id
    · simp [hid]
    · simp only [hid, false_or, ← ih]
      constructor
      · rintro ⟨m, ⟨hm, _⟩, he⟩
        exact ⟨m, hm, he⟩
      · rintro ⟨m, hm, he⟩
        exact ⟨m, ⟨hm, by simpa [he] using hid⟩, he⟩

/-- Nodes with different ids are all kept. -/
theorem distinctNodes_of_nodup {nodes : List Node} (h : (nodes.map Node.id).Nodup) :
    distinctNodes nodes = nodes := by
  induction nodes with
  | nil => rfl
  | cons n rest ih =>
    obtain ⟨hnew, hrest⟩ := List.nodup_cons.mp h
    rw [distinctNodes, ih hrest, List.filter_eq_self.mpr]
    intro m hm
    have hne : m.id ≠ n.id := fun he => hnew (he ▸ List.mem_map_of_mem hm)
    simpa using hne

/-- Nodes are planned one by one. -/
theorem planNodes_eq_ok {g : Graph} {c : Choices} {pairs : List (Node × String)}
    {planned : List PlannedNode} (h : planNodes g c pairs = .ok planned) :
    List.Forall₂ (fun e n => planNode g c e.1 e.2 = .ok n) pairs planned := by
  induction pairs generalizing planned with
  | nil =>
    cases h
    exact .nil
  | cons e rest ih =>
    obtain ⟨here, hhere, h⟩ := except_bind_eq_ok.mp h
    obtain ⟨others, hothers, h⟩ := except_bind_eq_ok.mp h
    cases h
    exact .cons hhere (ih hothers)

/-- A planned node keeps its id and its tag and has the name that it was given. -/
theorem planNode_eq_ok {g : Graph} {c : Choices} {n : Node} {name : String} {m : PlannedNode}
    (h : planNode g c n name = .ok m) :
    ∃ config, Placeholder.resolveFields (valuesFor g c n) n.data = .ok config ∧
      m = ⟨n.id, n.type, name, config⟩ := by
  obtain ⟨config, hconfig, h⟩ := except_bind_eq_ok.mp h
  cases h
  exact ⟨config, hconfig, rfl⟩

theorem map_of_planned {g : Graph} {c : Choices} {pairs : List (Node × String)}
    {planned : List PlannedNode}
    (h : List.Forall₂ (fun e n => planNode g c e.1 e.2 = .ok n) pairs planned) :
    planned.map PlannedNode.id = (pairs.map Prod.fst).map Node.id ∧
      planned.map PlannedNode.tag = (pairs.map Prod.fst).map Node.type ∧
      planned.map PlannedNode.functionName = pairs.map Prod.snd := by
  induction h with
  | nil => exact ⟨rfl, rfl, rfl⟩
  | cons hnode _ ih =>
    obtain ⟨hids, htags, hnames⟩ := ih
    obtain ⟨config, _, rfl⟩ := planNode_eq_ok hnode
    simp [hids, htags, hnames]

/-! ## Plans -/

/-- A plan of a graph. -/
structure Sound (g : Graph) (p : Plan) : Prop where
  nodup_ids : (p.nodes.map PlannedNode.id).Nodup
  mem_ids : ∀ id, id ∈ p.nodes.map PlannedNode.id ↔ id ∈ g.nodes.map Node.id
  ids_eq : p.nodes.map PlannedNode.id = (distinctNodes g.nodes).map Node.id
  tags_eq : p.nodes.map PlannedNode.tag = (distinctNodes g.nodes).map Node.type
  names_eq : p.nodes.map PlannedNode.functionName =
    functionNames ((distinctNodes g.nodes).map Node.id)
  nodup_names : (p.nodes.map PlannedNode.functionName).Nodup
  isFunctionName : ∀ n ∈ p.nodes, IsFunctionName n.functionName
  order_subset : ∀ n ∈ p.order, n ∈ p.nodes
  order_eq : RunOrder.order (g.nodes.map Node.id) (links g) = .ok (p.order.map PlannedNode.id)

theorem orderTraced_eq_ok {ids : List String} {edges : List RunOrder.Link} {r : List String}
    (h : (RunOrder.orderTraced ids edges).outcome = .ok r) : RunOrder.order ids edges = .ok r := by
  obtain ⟨_, _, h⟩ := Traced.bind_eq_ok.mp h
  split at h
  · rename_i result hresult
    cases h
    exact hresult
  · cases h

/-- Looking up ids that are all there gives nodes with these ids. -/
theorem map_id_filterMap {planned : List PlannedNode} {ids : List String}
    (h : ∀ id ∈ ids, id ∈ planned.map PlannedNode.id) :
    (ids.filterMap fun id => planned.find? fun n => n.id == id).map PlannedNode.id = ids := by
  induction ids with
  | nil => rfl
  | cons id rest ih =>
    obtain ⟨n, hn, hid⟩ := List.mem_map.mp (h id (by simp))
    have hrest := ih fun x hx => h x (List.mem_cons_of_mem _ hx)
    cases hfind : planned.find? fun n => n.id == id with
    | none =>
      have hno := List.find?_eq_none.mp hfind n hn
      simp [hid] at hno
    | some m =>
      have hm : m.id = id := by simpa using List.find?_some hfind
      rw [List.filterMap_cons, hfind, List.map_cons, hrest, hm]

/-- What a plan is built from: its nodes are those of the graph, planned one by one. -/
theorem planned_of_build {g : Graph} {c : Choices} {p : Plan}
    (h : (Plan.build g c).outcome = .ok p) :
    List.Forall₂ (fun e n => planNode g c e.1 e.2 = .ok n)
      ((distinctNodes g.nodes).zip (functionNames ((distinctNodes g.nodes).map Node.id)))
      p.nodes := by
  obtain ⟨ids, _, h⟩ := Traced.bind_eq_ok.mp h
  obtain ⟨planned, hplanned, h⟩ := Traced.bind_eq_ok.mp h
  cases h
  exact planNodes_eq_ok (except_mapError_eq_ok.mp hplanned)

/-- The nodes of a plan run in an order of the ids. -/
theorem order_of_build {g : Graph} {c : Choices} {p : Plan}
    (h : (Plan.build g c).outcome = .ok p) :
    ∃ ids, RunOrder.order (g.nodes.map Node.id) (links g) = .ok ids ∧
      p.order = ids.filterMap fun id => p.nodes.find? fun n => n.id == id := by
  obtain ⟨ids, hids, h⟩ := Traced.bind_eq_ok.mp h
  obtain ⟨planned, _, h⟩ := Traced.bind_eq_ok.mp h
  cases h
  exact ⟨ids, orderTraced_eq_ok hids, rfl⟩

/-- A node that is not shadowed is planned under its id and its tag, with its settings resolved. -/
theorem exists_planned {g : Graph} {c : Choices} {p : Plan} (h : (Plan.build g c).outcome = .ok p)
    {n : Node} (hn : n ∈ distinctNodes g.nodes) :
    ∃ m ∈ p.nodes, m.id = n.id ∧ m.tag = n.type ∧
      Placeholder.resolveFields (valuesFor g c n) n.data = .ok m.config := by
  have hlength : (distinctNodes g.nodes).length ≤
      (functionNames ((distinctNodes g.nodes).map Node.id)).length := by
    rw [functionNames, length_nameAll, List.length_map]
  rw [← List.map_fst_zip hlength] at hn
  obtain ⟨e, he, rfl⟩ := List.mem_map.mp hn
  obtain ⟨m, hm, hplanned⟩ := exists_of_forall₂ (planned_of_build h) he
  obtain ⟨config, hconfig, rfl⟩ := planNode_eq_ok hplanned
  exact ⟨_, hm, rfl, rfl, hconfig⟩

theorem graph_of_build {g : Graph} {c : Choices} {p : Plan}
    (h : (Plan.build g c).outcome = .ok p) : p.graph = g ∧ p.choices = c := by
  obtain ⟨_, _, h⟩ := Traced.bind_eq_ok.mp h
  obtain ⟨_, _, h⟩ := Traced.bind_eq_ok.mp h
  cases h
  exact ⟨rfl, rfl⟩

theorem sound_of_build {g : Graph} {c : Choices} {p : Plan}
    (h : (Plan.build g c).outcome = .ok p) : Sound g p := by
  obtain ⟨hpids, hptags, hpnames⟩ := map_of_planned (planned_of_build h)
  obtain ⟨ids, hids, h⟩ := Traced.bind_eq_ok.mp h
  obtain ⟨planned, hplanned, h⟩ := Traced.bind_eq_ok.mp h
  cases h
  have horder := orderTraced_eq_ok hids
  obtain ⟨_, hmem, _⟩ := RunOrder.order_forward horder
  have hlength : (functionNames ((distinctNodes g.nodes).map Node.id)).length =
      (distinctNodes g.nodes).length := by
    rw [functionNames, length_nameAll, List.length_map]
  rw [List.map_fst_zip (Nat.le_of_eq hlength.symm)] at hpids hptags
  rw [List.map_snd_zip (Nat.le_of_eq hlength)] at hpnames
  have hknown : ∀ id, id ∈ planned.map PlannedNode.id ↔ id ∈ g.nodes.map Node.id := by
    intro id
    rw [hpids, mem_distinctNodes]
  refine ⟨?_, hknown, hpids, hptags, hpnames, ?_, ?_, ?_, ?_⟩
  · rw [hpids]
    exact nodup_distinctNodes g.nodes
  · rw [hpnames]
    exact (nameAll_fresh _ _).1
  · intro n hn
    have hname : n.functionName ∈ planned.map PlannedNode.functionName := List.mem_map_of_mem hn
    rw [hpnames] at hname
    exact isFunctionName_of_mem_nameAll hname
  · intro n hn
    obtain ⟨id, _, hfind⟩ := List.mem_filterMap.mp hn
    exact List.mem_of_find?_eq_some hfind
  · rw [map_id_filterMap fun id hid => (hknown id).mpr ((hmem id).mp hid)]
    exact horder

/-- Every planned node is run. -/
theorem Sound.mem_order_iff {g : Graph} {p : Plan} (h : Sound g p) (n : PlannedNode) :
    n ∈ p.order ↔ n ∈ p.nodes := by
  refine ⟨h.order_subset n, fun hn => ?_⟩
  obtain ⟨_, hmem, _⟩ := RunOrder.order_forward h.order_eq
  have hid : n.id ∈ p.order.map PlannedNode.id :=
    (hmem n.id).mpr ((h.mem_ids n.id).mp (List.mem_map_of_mem hn))
  obtain ⟨m, hm, he⟩ := List.mem_map.mp hid
  rwa [← List.inj_on_of_nodup_map h.nodup_ids (h.order_subset m hm) hn he]

end Plan

end Flowscript
