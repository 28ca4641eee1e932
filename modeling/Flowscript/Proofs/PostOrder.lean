-- The run order as a recursion. A node is visited by visiting its
-- predecessors first, in the order of the edges, and is ordered when they
-- are. The walk over waiting nodes does the same with the calls that are
-- still open kept on a stack, so the laws of the recursion are laws of the
-- order: a list that is in order already stays as it is, and nodes that join
-- behind the others do not disturb them.
import Flowscript.Proofs.Journal
import Flowscript.Proofs.RunOrder

namespace Flowscript.RunOrder

/-! ## The recursion -/

theorem countP_entered {ids path : List String} {next : String} (hknown : next ∈ ids)
    (hnew : next ∉ path) :
    ids.countP (fun id => decide (id ∉ next :: path)) <
      ids.countP (fun id => decide (id ∉ path)) := by
  have hsplit := countP_notMem_cons (fun id => id) ids hnew
  have hpos : 0 < ids.countP (fun id => decide (id = next)) :=
    List.countP_pos_iff.mpr ⟨next, hknown, by simp⟩
  omega

/-- Visits nodes in turn: one that is not known or is ordered already is passed over, and any other
is ordered behind its predecessors. `path` are the nodes whose visit has not ended, and one of them
that is met again closes a cycle. -/
def descend (ids : List String) (edges : List Link) (path done : List String) :
    List String → Except String (List String)
  | [] => .ok done
  | next :: rest =>
    if next ∈ path then .error next
    else if next ∉ ids ∨ next ∈ done then descend ids edges path done rest
    else do
      let done' ← descend ids edges (next :: path) done (predecessors edges next)
      descend ids edges path (done' ++ [next]) rest
termination_by pending => (ids.countP (fun id => decide (id ∉ path)), pending.length)
decreasing_by
  · exact Prod.Lex.right _ (by simp)
  · rename_i hpath hskip
    simp only [not_or, not_not] at hskip
    exact Prod.Lex.left _ _ (countP_entered hskip.1 hpath)
  · exact Prod.Lex.right _ (by simp)

/-- Visits the distinct ids in their order. -/
def postOrder (ids : List String) (edges : List Link) : Except String (List String) :=
  descend ids edges [] [] ids.eraseDups

variable {ids : List String} {edges : List Link} {path done : List String}

@[simp]
theorem descend_nil : descend ids edges path done [] = .ok done := by
  rw [descend]

theorem descend_waiting {next : String} (rest : List String) (h : next ∈ path) :
    descend ids edges path done (next :: rest) = .error next := by
  rw [descend, if_pos h]

theorem descend_passed {next : String} (rest : List String) (hpath : next ∉ path)
    (h : next ∉ ids ∨ next ∈ done) :
    descend ids edges path done (next :: rest) = descend ids edges path done rest := by
  rw [descend, if_neg hpath, if_pos h]

theorem descend_entered {next : String} (rest : List String) (hpath : next ∉ path)
    (hknown : next ∈ ids) (hdone : next ∉ done) :
    descend ids edges path done (next :: rest) =
      (descend ids edges (next :: path) done (predecessors edges next) >>= fun done' =>
        descend ids edges path (done' ++ [next]) rest) := by
  rw [descend, if_neg hpath, if_neg (by simp [hknown, hdone])]

/-- Only known nodes are visited. -/
theorem descend_known (hpath : ∀ id ∈ path, id ∈ ids) (pending : List String) :
    descend ids edges path done (pending.filter fun id => ids.contains id) =
      descend ids edges path done pending := by
  induction pending generalizing done with
  | nil => rfl
  | cons next rest ih =>
    by_cases hknown : next ∈ ids
    · rw [List.filter_cons_of_pos (by simpa using hknown)]
      by_cases hwait : next ∈ path
      · rw [descend_waiting _ hwait, descend_waiting _ hwait]
      by_cases hdone : next ∈ done
      · rw [descend_passed _ hwait (Or.inr hdone), descend_passed _ hwait (Or.inr hdone), ih]
      · rw [descend_entered _ hwait hknown hdone, descend_entered _ hwait hknown hdone]
        congr 1
        funext done'
        exact ih
    · rw [List.filter_cons_of_neg (by simpa using hknown), ih,
        descend_passed _ (fun hwait => hknown (hpath next hwait)) (Or.inl hknown)]

/-! ## The stack of open visits -/

/-- Ends the visits that are open: the latest one goes on with its pending predecessors, and what
waits below it goes on behind it. -/
def resume (ids : List String) (edges : List Link) :
    List Frame → List String → Except String (List String)
  | [], done => .ok done
  | f :: below, done => do
    let done' ← descend ids edges (f.id :: below.map Frame.id) done f.pending
    resume ids edges below (done' ++ [f.id])

/-- Of the predecessors of a known node the walk sees the known ones. -/
theorem predecessors_knownLinks {id : String} (h : id ∈ ids) :
    predecessors (knownLinks ids.eraseDups edges) id =
      (predecessors edges id).filter fun a => ids.contains a := by
  unfold predecessors knownLinks
  rw [List.filter_filterMap, List.filterMap_filter]
  congr 1
  funext e
  by_cases he : e.2 = id
  · by_cases hs : e.1 ∈ ids <;> simp [isKnown, he, h, hs, List.mem_eraseDups, Option.filter]
  · simp [he]

/-- One step of the walk is one step of the recursion: it does not change what the open visits come
to, and where it stops the recursion stops too. -/
theorem resume_eq_step {w : Walk} (hw : w.waiting ≠ [])
    (h : Good ids.eraseDups (knownLinks ids.eraseDups edges) w) :
    resume ids edges w.waiting w.done =
      (step (knownLinks ids.eraseDups edges) w >>= fun w' =>
        resume ids edges w'.waiting w'.done) := by
  obtain ⟨waiting, done⟩ := w
  rcases waiting with _ | ⟨⟨id, _ | ⟨next, pending⟩⟩, below⟩
  · exact absurd rfl hw
  · simp only [resume, descend_nil]
    rfl
  have hfeeds : Feeds ids edges next id :=
    precedes_knownLinks.mp (h.pending ⟨id, next :: pending⟩ (by simp) next (by simp))
  simp only [resume]
  by_cases hwait : next ∈ id :: below.map Frame.id
  · rw [step_stop hwait, descend_waiting _ hwait]
    rfl
  by_cases hdone : next ∈ done
  · rw [step_skip hwait hdone, descend_passed _ hwait (Or.inr hdone)]
    rfl
  · have hpath : ∀ x ∈ next :: id :: below.map Frame.id, x ∈ ids := by
      intro x hx
      rcases List.mem_cons.mp hx with rfl | hx
      · exact hfeeds.2.1
      · exact List.mem_eraseDups.mp (h.known x (List.mem_append_left _ hx))
    rw [step_enter hwait hdone, descend_entered _ hwait hfeeds.2.1 hdone,
      predecessors_knownLinks hfeeds.2.1, bind_assoc, ← descend_known hpath]
    rfl

theorem run_eq_resume (fuel : Nat) (w : Walk)
    (h : Good ids.eraseDups (knownLinks ids.eraseDups edges) w)
    (hfuel : left ids.eraseDups (knownLinks ids.eraseDups edges) w ≤ fuel) :
    run (knownLinks ids.eraseDups edges) fuel w = resume ids edges w.waiting w.done := by
  induction fuel generalizing w with
  | zero =>
    rw [waiting_of_left h (Nat.le_zero.mp hfuel)]
    rfl
  | succ fuel ih =>
    unfold run
    by_cases hw : w.waiting = []
    · simp [hw, resume]
    · have hne : w.waiting.isEmpty = false := by simpa using hw
      simp only [hne, Bool.false_eq_true, if_false]
      rw [resume_eq_step hw h]
      rcases step_spec source_of_knownLinks h hw with ⟨w', hstep, hgood, hlt, _⟩ | ⟨a, hstep, _⟩
      · rw [hstep]
        exact ih w' hgood (by omega)
      · rw [hstep]
        rfl

theorem visit_eq_descend {root : String}
    (h : Good ids.eraseDups (knownLinks ids.eraseDups edges) ⟨[], done⟩) (hroot : root ∈ ids) :
    visit ids.eraseDups (knownLinks ids.eraseDups edges) done root =
      descend ids edges [] done [root] := by
  unfold visit
  by_cases hdone : root ∈ done
  · rw [descend_passed _ (by simp) (Or.inr hdone)]
    simp [hdone]
  · have hpath : ∀ x ∈ [root], x ∈ ids := by simpa using hroot
    have hgood := good_start h (List.mem_eraseDups.mpr hroot) hdone
    rw [descend_entered _ (by simp) hroot hdone, ← descend_known hpath,
      ← predecessors_knownLinks hroot, if_neg (by simpa using hdone),
      run_eq_resume _ _ hgood (left_start_le hdone)]
    simp only [resume, descend_nil]
    rfl

/-- What is visited in turn is visited one part after the other. -/
theorem descend_append (front back : List String) :
    descend ids edges path done (front ++ back) =
      (descend ids edges path done front >>= fun done' =>
        descend ids edges path done' back) := by
  induction front generalizing done with
  | nil => simp [bind, Except.bind]
  | cons next rest ih =>
    rw [List.cons_append]
    by_cases hwait : next ∈ path
    · rw [descend_waiting _ hwait, descend_waiting _ hwait]
      rfl
    by_cases hpass : next ∉ ids ∨ next ∈ done
    · rw [descend_passed _ hwait hpass, descend_passed _ hwait hpass, ih]
    · simp only [not_or, not_not] at hpass
      rw [descend_entered _ hwait hpass.1 hpass.2, descend_entered _ hwait hpass.1 hpass.2,
        bind_assoc]
      congr 1
      funext done'
      exact ih

theorem visitAll_eq_descend (roots : List String)
    (h : Good ids.eraseDups (knownLinks ids.eraseDups edges) ⟨[], done⟩)
    (hroots : ∀ root ∈ roots, root ∈ ids) :
    visitAll ids.eraseDups (knownLinks ids.eraseDups edges) roots done =
      descend ids edges [] done roots := by
  induction roots generalizing done with
  | nil => simp [visitAll]
  | cons root rest ih =>
    have hroot : root ∈ ids := hroots root (by simp)
    have hends := visit_ends source_of_knownLinks h (List.mem_eraseDups.mpr hroot)
    unfold visitAll
    rw [← List.singleton_append, descend_append, ← visit_eq_descend h hroot]
    cases hvisit : visit ids.eraseDups (knownLinks ids.eraseDups edges) done root with
    | error a => rfl
    | ok done' =>
      rw [hvisit] at hends
      exact ih hends.1 fun x hx => hroots x (List.mem_cons_of_mem _ hx)

theorem order_eq_postOrder (ids : List String) (edges : List Link) :
    order ids edges = postOrder ids edges :=
  visitAll_eq_descend ids.eraseDups good_nil fun _ hroot => List.mem_eraseDups.mp hroot

/-! ## Lists that are in order -/

/-- Nodes that are all ordered or unknown are passed over. -/
theorem descend_of_done {pending : List String}
    (h : ∀ id ∈ pending, id ∉ path ∧ (id ∉ ids ∨ id ∈ done)) :
    descend ids edges path done pending = .ok done := by
  induction pending with
  | nil => exact descend_nil
  | cons next rest ih =>
    obtain ⟨hpath, hpass⟩ := h next (by simp)
    rw [descend_passed _ hpath hpass]
    exact ih fun id hid => h id (List.mem_cons_of_mem _ hid)

/-- With every known source in front of its target, the visits end in the order in which they
begin. -/
theorem descend_sorted (hsorted : ∀ a b, Feeds ids edges a b → ids.idxOf a < ids.idxOf b)
    (rest : List String) (hids : ids = done ++ rest) (hnodup : ids.Nodup) :
    descend ids edges [] done rest = .ok (done ++ rest) := by
  induction rest generalizing done with
  | nil => simp
  | cons next rest ih =>
    have hnext : next ∈ ids := by simp [hids]
    have hnew : next ∉ done := by
      intro hmem
      rw [hids] at hnodup
      exact (List.nodup_append.mp hnodup).2.2 next hmem next (by simp) rfl
    have hplace : ids.idxOf next = done.length := by
      rw [hids, List.idxOf_append_of_notMem hnew, List.idxOf_cons_self, Nat.add_zero]
    have hpreds : descend ids edges [next] done (predecessors edges next) = .ok done := by
      apply descend_of_done
      intro a ha
      by_cases hknown : a ∈ ids
      · have hlt := hsorted a next ⟨mem_predecessors.mp ha, hknown, hnext⟩
        have hdone : a ∈ done := by
          by_contra hout
          rw [hplace, hids, List.idxOf_append_of_notMem hout] at hlt
          omega
        exact ⟨fun hmem => hnew (List.mem_singleton.mp hmem ▸ hdone), Or.inr hdone⟩
      · exact ⟨fun hmem => hknown (List.mem_singleton.mp hmem ▸ hnext), Or.inl hknown⟩
    rw [descend_entered _ (by simp) hnext hnew, hpreds]
    show descend ids edges [] (done ++ [next]) rest = _
    rw [ih (by simp [hids])]
    simp

theorem eraseDups_of_nodup (h : ids.Nodup) : ids.eraseDups = ids := by
  induction ids with
  | nil => rfl
  | cons id rest ih =>
    obtain ⟨hnew, hrest⟩ := List.nodup_cons.mp h
    rw [List.eraseDups_cons, List.filter_eq_self.mpr, ih hrest]
    intro x hx
    have hne : x ≠ id := fun he => hnew (he ▸ hx)
    simpa using hne

theorem order_of_sorted (hnodup : ids.Nodup)
    (hsorted : ∀ a b, Feeds ids edges a b → ids.idxOf a < ids.idxOf b) :
    order ids edges = .ok ids := by
  rw [order_eq_postOrder, postOrder, eraseDups_of_nodup hnodup]
  exact descend_sorted hsorted ids rfl hnodup

/-- The walk with its stack gives what the recursion gives, an order or the node that closes a cycle.
Ids without repetition that stand in order already stay as they are, and so an order is its own
order. -/
theorem the_order_is_that_of_the_recursion (ids : List String) (edges : List Link) :
    order ids edges = postOrder ids edges ∧
    (ids.Nodup → (∀ a b, Feeds ids edges a b → ids.idxOf a < ids.idxOf b) →
      order ids edges = .ok ids) ∧
    ∀ r, order ids edges = .ok r → order r edges = .ok r := by
  refine ⟨order_eq_postOrder ids edges, order_of_sorted, fun r hr => ?_⟩
  obtain ⟨hnodup, hmem, hforward⟩ := order_forward hr
  apply order_of_sorted hnodup
  rintro a b ⟨hab, ha, hb⟩
  exact hforward a b ⟨hab, (hmem a).mp ha, (hmem b).mp hb⟩

/-- Two nodes that wait for each other are met at the same place, a chain with an edge from nowhere
is in order, and so is the order of a chain that was given backwards. -/
theorem a_knot_and_two_chains_by_recursion :
    postOrder ["c", "b", "a"] [("b", "c"), ("a", "b"), ("b", "a")] = .error "b" ∧
    order ["a", "b", "c"] [("x", "a"), ("a", "c"), ("b", "c"), ("a", "c")] =
      .ok ["a", "b", "c"] ∧
    order ["a", "b", "c"] [("b", "c"), ("a", "b")] = .ok ["a", "b", "c"] := by
  refine ⟨?_, ?_, ?_⟩
  · rw [← (the_order_is_that_of_the_recursion _ _).1]
    rfl
  · apply (the_order_is_that_of_the_recursion _ _).2.1
    · decide
    · rintro a b ⟨hab, ha, hb⟩
      simp only [List.mem_cons, Prod.mk.injEq, List.not_mem_nil, or_false] at hab ha
      rcases hab with ⟨rfl, rfl⟩ | ⟨rfl, rfl⟩ | ⟨rfl, rfl⟩ | ⟨rfl, rfl⟩
      · simp at ha
      all_goals decide
  · exact (the_order_is_that_of_the_recursion ["c", "b", "a"] [("b", "c"), ("a", "b")]).2.2 _ rfl

/-! ## Lists that grow -/

/-- What is ordered stays in front. -/
theorem prefix_of_descend {pending r : List String}
    (h : descend ids edges path done pending = .ok r) : done <+: r := by
  fun_induction descend ids edges path done pending generalizing r with
  | case1 path done =>
    cases h
    exact List.prefix_refl _
  | case2 path done next rest hwait => cases h
  | case3 path done next rest hwait hpass ih => exact ih h
  | case4 path done next rest hwait hpass ihpreds ihrest =>
    obtain ⟨done', hpreds, hrest⟩ := except_bind_eq_ok.mp h
    have hfront : done <+: done' ++ [next] := (ihpreds hpreds).trans (List.prefix_append _ _)
    exact hfront.trans (ihrest done' hrest)

/-- No edge leads from a node that is only among the new ones to one of the old ones. -/
def JoinsBehind (edges : List Link) (old new : List String) : Prop :=
  ∀ e ∈ edges, e.1 ∈ new → e.1 ∉ old → e.2 ∉ old

/-- Visits that begin at old nodes do not meet new ones. -/
theorem descend_joined {old new : List String} (hjoin : JoinsBehind edges old new)
    {pending : List String} (h : ∀ id ∈ pending, id ∈ new → id ∈ old) :
    descend (old ++ new) edges path done pending = descend old edges path done pending := by
  fun_induction descend old edges path done pending with
  | case1 path done => exact descend_nil
  | case2 path done next rest hwait => exact descend_waiting _ hwait
  | case3 path done next rest hwait hpass ih =>
    have hpass' : next ∉ old ++ new ∨ next ∈ done := by
      refine hpass.imp_left fun hout hmem => ?_
      exact (List.mem_append.mp hmem).elim hout fun hnew => hout (h next (by simp) hnew)
    rw [descend_passed _ hwait hpass', ih fun id hid => h id (List.mem_cons_of_mem _ hid)]
  | case4 path done next rest hwait hpass ihpreds ihrest =>
    simp only [not_or, not_not] at hpass
    obtain ⟨hold, hdone⟩ := hpass
    rw [descend_entered _ hwait (List.mem_append_left _ hold) hdone, ihpreds]
    · congr 1
      funext done'
      exact ihrest done' fun id hid => h id (List.mem_cons_of_mem _ hid)
    · intro a ha hnew
      by_contra hout
      exact hjoin (a, next) (mem_predecessors.mp ha) hnew hout hold

/-- With new nodes behind the old ones, the old ones are ordered first and as before. -/
theorem order_append {old new : List String} (hjoin : JoinsBehind edges old new) :
    order (old ++ new) edges =
      (order old edges >>= fun r =>
        descend (old ++ new) edges [] r (new.removeAll old).eraseDups) := by
  rw [order_eq_postOrder, order_eq_postOrder, postOrder, postOrder, List.eraseDups_append,
    descend_append, descend_joined hjoin]
  intro id hid _
  exact List.mem_eraseDups.mp hid

/-- Nodes that join behind others, with no edge back to them, change nothing for these: a cycle
among them is met at the same node, and the order of them is the beginning of the new order, if there
is one. -/
theorem an_order_is_kept_when_nodes_join_behind (old new : List String) (edges : List Link)
    (hjoin : JoinsBehind edges old new) :
    (∀ n, order old edges = .error n → order (old ++ new) edges = .error n) ∧
    ∀ r, order old edges = .ok r →
      (∃ n, order (old ++ new) edges = .error n) ∨
        ∃ r', order (old ++ new) edges = .ok r' ∧ r <+: r' := by
  rw [order_append hjoin]
  refine ⟨fun n hn => ?_, fun r hr => ?_⟩
  · rw [hn]
    rfl
  · rw [hr]
    cases hall : descend (old ++ new) edges [] r (new.removeAll old).eraseDups with
    | error n => exact Or.inl ⟨n, hall⟩
    | ok r' => exact Or.inr ⟨r', hall, prefix_of_descend hall⟩

/-- A chain grows by a node that waits for it and by one that does not, and a knot by another
knot. -/
theorem a_chain_and_a_knot_that_grow :
    ["a", "b"] <+: ["a", "b", "d", "c"] ∧
    order (["b", "a"] ++ ["c", "a", "d"]) [("a", "b"), ("x", "a"), ("b", "c"), ("d", "c")] =
      .ok ["a", "b", "d", "c"] ∧
    order (["b", "a"] ++ ["c", "d"]) [("a", "b"), ("b", "a"), ("c", "d"), ("d", "c")] =
      .error "b" := by
  have hchain := (an_order_is_kept_when_nodes_join_behind ["b", "a"] ["c", "a", "d"]
    [("a", "b"), ("x", "a"), ("b", "c"), ("d", "c")] (by simp [JoinsBehind])).2 ["a", "b"] rfl
  have hknot := (an_order_is_kept_when_nodes_join_behind ["b", "a"] ["c", "d"]
    [("a", "b"), ("b", "a"), ("c", "d"), ("d", "c")] (by simp [JoinsBehind])).1 "b" rfl
  rcases hchain with ⟨n, hn⟩ | ⟨r, hr, hfront⟩
  · cases hn
  · cases hr
    exact ⟨hfront, rfl, hknot⟩

end Flowscript.RunOrder
