-- What the run order depends on. Of all the edges it uses, for each known
-- node, the known sources in the order of their first edges. A source that a
-- node meets again is ordered by then, with or without a cycle elsewhere, or
-- the walk has stopped before. So it is all the same in which order the edges
-- of different targets stand, whether an edge is repeated later, and what
-- edges lead from or to nowhere.
import Flowscript.Proofs.PostOrder

namespace Flowscript.RunOrder

variable {ids : List String} {edges edges' : List Link} {path done : List String}

/-! ## Nodes that are met again -/

/-- Where the visits of a list end well, none of its nodes was waiting, and all that are known are
ordered. -/
theorem passed_of_descend {pending r : List String}
    (h : descend ids edges path done pending = .ok r) :
    ∀ id ∈ pending, id ∉ path ∧ (id ∉ ids ∨ id ∈ r) := by
  induction pending generalizing done with
  | nil => simp
  | cons next rest ih =>
    by_cases hwait : next ∈ path
    · rw [descend_waiting _ hwait] at h
      cases h
    have hnext : ∀ mid, descend ids edges path mid rest = .ok r → next ∉ ids ∨ next ∈ mid →
        ∀ id ∈ next :: rest, id ∉ path ∧ (id ∉ ids ∨ id ∈ r) := by
      intro mid hrest hmid id hid
      rcases List.mem_cons.mp hid with rfl | hid
      · exact ⟨hwait, hmid.imp_right fun hmem => (prefix_of_descend hrest).mem hmem⟩
      · exact ih hrest id hid
    by_cases hpass : next ∉ ids ∨ next ∈ done
    · rw [descend_passed _ hwait hpass] at h
      exact hnext done h hpass
    · simp only [not_or, not_not] at hpass
      rw [descend_entered _ hwait hpass.1 hpass.2] at h
      obtain ⟨done', _, hrest⟩ := except_bind_eq_ok.mp h
      exact hnext _ hrest (Or.inr (by simp))

/-- A node that stands in a list again is passed over the second time. -/
theorem descend_again {front : List String} {next : String} (h : next ∈ front) :
    descend ids edges path done (front ++ [next]) = descend ids edges path done front := by
  rw [descend_append]
  cases hfront : descend ids edges path done front with
  | error a => rfl
  | ok r =>
    obtain ⟨hwait, hpass⟩ := passed_of_descend hfront next h
    show descend ids edges path r [next] = .ok r
    rw [descend_passed _ hwait hpass, descend_nil]

theorem eraseDups_repeated {front : List String} {x : String} (h : x ∈ front) (back : List String) :
    (front ++ x :: back).eraseDups = (front ++ back).eraseDups := by
  rw [List.eraseDups_append, List.eraseDups_append]
  simp [List.removeAll, h]

/-- Of the nodes of a list each one is visited once, where it stands first. -/
theorem descend_eraseDups (pending : List String) :
    descend ids edges path done pending.eraseDups = descend ids edges path done pending := by
  induction pending using List.reverseRecOn with
  | nil => rfl
  | append_singleton front next ih =>
    by_cases hmem : next ∈ front
    · rw [eraseDups_repeated hmem [], List.append_nil, ih, descend_again hmem]
    · have hnew : (front ++ [next]).eraseDups = front.eraseDups ++ [next] := by
        rw [List.eraseDups_append]
        simp [List.removeAll, List.eraseDups_cons, hmem]
      rw [hnew, descend_append, descend_append, ih]

/-! ## Sources -/

/-- The known sources of the edges into a node, each once and in the order of their first edges. -/
def sources (ids : List String) (edges : List Link) (id : String) : List String :=
  ((predecessors edges id).filter fun a => ids.contains a).eraseDups

/-- Visiting the predecessors of a node is visiting its sources. -/
theorem descend_sources (hpath : ∀ id ∈ path, id ∈ ids) (id : String) :
    descend ids edges path done (sources ids edges' id) =
      descend ids edges path done (predecessors edges' id) := by
  unfold sources
  rw [descend_eraseDups, descend_known hpath]

theorem descend_congr (h : ∀ id ∈ ids, sources ids edges id = sources ids edges' id)
    (hpath : ∀ id ∈ path, id ∈ ids) (pending : List String) :
    descend ids edges path done pending = descend ids edges' path done pending := by
  fun_induction descend ids edges path done pending with
  | case1 path done => rw [descend_nil]
  | case2 path done next rest hwait => rw [descend_waiting _ hwait]
  | case3 path done next rest hwait hpass ih => rw [descend_passed _ hwait hpass, ih hpath]
  | case4 path done next rest hwait hpass ihpreds ihrest =>
    simp only [not_or, not_not] at hpass
    obtain ⟨hknown, hdone⟩ := hpass
    have hopen : ∀ id ∈ next :: path, id ∈ ids := by
      intro id hid
      rcases List.mem_cons.mp hid with rfl | hid
      · exact hknown
      · exact hpath id hid
    have hpreds : descend ids edges (next :: path) done (predecessors edges next) =
        descend ids edges' (next :: path) done (predecessors edges' next) := by
      rw [ihpreds hopen, ← descend_sources hopen, h next hknown, descend_sources hopen]
    rw [descend_entered _ hwait hknown hdone, hpreds]
    congr 1
    funext done'
    exact ihrest done' hpath

theorem order_congr (h : ∀ id ∈ ids, sources ids edges id = sources ids edges' id) :
    order ids edges = order ids edges' := by
  rw [order_eq_postOrder, order_eq_postOrder]
  exact descend_congr h (by simp) ids.eraseDups

/-! ## Lists of edges -/

theorem predecessors_eq_map (edges : List Link) (id : String) :
    predecessors edges id = (edges.filter fun e => e.2 = id).map Prod.fst := by
  unfold predecessors
  induction edges with
  | nil => rfl
  | cons e rest ih => by_cases h : e.2 = id <;> simp [h, ih]

theorem predecessors_append (front back : List Link) (id : String) :
    predecessors (front ++ back) id = predecessors front id ++ predecessors back id := by
  unfold predecessors
  rw [List.filterMap_append]

theorem predecessors_cons (e : Link) (rest : List Link) (id : String) :
    predecessors (e :: rest) id =
      if e.2 = id then e.1 :: predecessors rest id else predecessors rest id := by
  unfold predecessors
  by_cases h : e.2 = id <;> simp [h]

theorem sources_repeated {front : List Link} {e : Link} (h : e ∈ front) (back : List Link)
    (id : String) : sources ids (front ++ e :: back) id = sources ids (front ++ back) id := by
  unfold sources
  rw [predecessors_append, predecessors_append, predecessors_cons]
  split
  · rename_i htarget
    have hmem : e.1 ∈ predecessors front id := mem_predecessors.mpr (htarget ▸ h)
    rw [List.filter_append, List.filter_append]
    by_cases hknown : e.1 ∈ ids
    · rw [List.filter_cons_of_pos (by simpa using hknown)]
      exact eraseDups_repeated (by simp [hmem, hknown]) _
    · rw [List.filter_cons_of_neg (by simpa using hknown)]
  · rfl

theorem sources_dangling {e : Link} (h : ¬ (e.1 ∈ ids ∧ e.2 ∈ ids)) (front back : List Link)
    {id : String} (hid : id ∈ ids) :
    sources ids (front ++ e :: back) id = sources ids (front ++ back) id := by
  unfold sources
  rw [predecessors_append, predecessors_append, predecessors_cons]
  split
  · rename_i htarget
    have hout : e.1 ∉ ids := fun hmem => h ⟨hmem, htarget ▸ hid⟩
    rw [List.filter_append, List.filter_append, List.filter_cons_of_neg (by simpa using hout)]
  · rfl

/-! ## The law -/

/-- Edges that give every known node the same sources give the same order, or stop at the same node.
So do edges that stand in another order while those into each node keep theirs; and an edge that
stands there before, or one with an unknown end, may be put in or left out anywhere. -/
theorem the_order_depends_on_the_sources_alone (ids : List String) (edges edges' : List Link) :
    ((∀ id ∈ ids, sources ids edges id = sources ids edges' id) →
      order ids edges = order ids edges') ∧
    ((∀ id, (edges.filter fun e => e.2 = id) = edges'.filter fun e => e.2 = id) →
      order ids edges = order ids edges') ∧
    (∀ e ∈ edges, order ids (edges ++ e :: edges') = order ids (edges ++ edges')) ∧
    ∀ e : Link, ¬ (e.1 ∈ ids ∧ e.2 ∈ ids) →
      order ids (edges ++ e :: edges') = order ids (edges ++ edges') := by
  refine ⟨order_congr, fun hsame => ?_, fun e he => ?_, fun e he => ?_⟩
  · apply order_congr
    intro id _
    unfold sources
    rw [predecessors_eq_map, predecessors_eq_map, hsame id]
  · exact order_congr fun id _ => sources_repeated he edges' id
  · exact order_congr fun id hid => sources_dangling he edges edges' hid

/-- A knot and a diamond with their edges mixed, repeated and joined by some from nowhere. -/
theorem a_knot_and_a_diamond_with_other_edges :
    order ["c", "b", "a"] [("x", "b"), ("a", "b"), ("b", "c"), ("b", "a"), ("a", "b")] =
      order ["c", "b", "a"] [("b", "c"), ("b", "a"), ("a", "b")] ∧
    order ["d", "a", "b", "c"] [("a", "b"), ("b", "d"), ("a", "c"), ("c", "d")] =
      order ["d", "a", "b", "c"] [("b", "d"), ("c", "d"), ("a", "c"), ("a", "b")] ∧
    order ["c", "b", "a"] ([("b", "c"), ("a", "c")] ++ ("b", "c") :: [("a", "b")]) =
      order ["c", "b", "a"] ([("b", "c"), ("a", "c")] ++ [("a", "b")]) ∧
    order ["b", "a"] ([] ++ ("b", "x") :: [("a", "b")]) = order ["b", "a"] ([] ++ [("a", "b")]) := by
  refine ⟨(the_order_depends_on_the_sources_alone _ _ _).1 (by decide),
    (the_order_depends_on_the_sources_alone _ _ _).2.1 fun id => ?_,
    (the_order_depends_on_the_sources_alone _ _ _).2.2.1 _ (by decide),
    (the_order_depends_on_the_sources_alone _ _ _).2.2.2 _ (by decide)⟩
  by_cases hd : "d" = id
  · subst hd
    decide
  · simp only [List.filter_cons, hd, List.filter_nil, decide_false]
    by_cases hb : "b" = id
    · subst hb
      decide
    · by_cases hc : "c" = id <;> simp [hb, hc]

end Flowscript.RunOrder
