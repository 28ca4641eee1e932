-- The laws of the run order. A walk keeps the invariant `Good`: the waiting
-- nodes are a path, and a waiting node has nothing behind it that is not
-- ordered or waiting above it. So every walk ends with each node behind its
-- predecessors, or at a node that lies on a cycle.
import Flowscript.RunOrder
import Mathlib.Data.List.Chain
import Mathlib.Data.List.Nodup
import Mathlib.Logic.Relation

namespace Flowscript.RunOrder

open Relation

/-! ## Edges -/

/-- An edge of the list leads from `a` to `b`. -/
def Precedes (links : List Link) (a b : String) : Prop := (a, b) ∈ links

/-- An edge leads from `a` to `b`, and both are among the ids. -/
def Feeds (ids : List String) (edges : List Link) (a b : String) : Prop :=
  (a, b) ∈ edges ∧ a ∈ ids ∧ b ∈ ids

/-- No node of the edges between known nodes leads back to itself. -/
def Acyclic (ids : List String) (edges : List Link) : Prop :=
  ∀ a, ¬ TransGen (Feeds ids edges) a a

theorem mem_predecessors {links : List Link} {a b : String} :
    a ∈ predecessors links b ↔ Precedes links a b := by
  unfold predecessors Precedes
  rw [List.mem_filterMap]
  constructor
  · rintro ⟨⟨s, t⟩, he, hs⟩
    split at hs
    · rename_i ht
      cases hs
      exact ht ▸ he
    · cases hs
  · intro h
    exact ⟨(a, b), h, by simp⟩

theorem length_predecessors (links : List Link) (b : String) :
    (predecessors links b).length = links.countP (fun e => e.2 = b) := by
  induction links with
  | nil => rfl
  | cons e rest ih =>
    unfold predecessors at ih ⊢
    by_cases h : e.2 = b <;> simp [h, ih]

theorem precedes_knownLinks {ids : List String} {edges : List Link} {a b : String} :
    Precedes (knownLinks ids.eraseDups edges) a b ↔ Feeds ids edges a b := by
  simp [Precedes, Feeds, knownLinks, isKnown, List.mem_eraseDups]

theorem source_of_knownLinks {ids : List String} {edges : List Link} (a b : String)
    (h : Precedes (knownLinks ids.eraseDups edges) a b) : a ∈ ids.eraseDups :=
  List.mem_eraseDups.mpr (precedes_knownLinks.mp h).2.1

/-! ## The invariant of a walk -/

/-- The ids of the waiting nodes, the latest first. -/
def Walk.ids (w : Walk) : List String := w.waiting.map Frame.id

/-- A predecessor of a waiting node is still pending, is ordered, or waits above the node. -/
def Looked (links : List Link) (done : List String) : List String → List Frame → Prop
  | _, [] => True
  | above, f :: below =>
    (∀ a, Precedes links a f.id → a ∈ f.pending ∨ a ∈ done ∨ a ∈ above) ∧
      Looked links done (f.id :: above) below

/-- Every ordered node stands behind its predecessors. -/
def Settled (links : List Link) (done : List String) : Prop :=
  ∀ a b, Precedes links a b → b ∈ done → done.idxOf a < done.idxOf b

structure Good (nodes : List String) (links : List Link) (w : Walk) : Prop where
  nodup : (w.ids ++ w.done).Nodup
  known : ∀ id ∈ w.ids ++ w.done, id ∈ nodes
  path : w.ids.IsChain (Precedes links)
  pending : ∀ f ∈ w.waiting, ∀ a ∈ f.pending, Precedes links a f.id
  looked : Looked links w.done [] w.waiting
  settled : Settled links w.done

theorem looked_mono {links : List Link} {done done' : List String} (fs : List Frame)
    {above above' : List String} (h : Looked links done above fs)
    (hm : ∀ a, a ∈ done ∨ a ∈ above → a ∈ done' ∨ a ∈ above') :
    Looked links done' above' fs := by
  induction fs generalizing above above' with
  | nil => trivial
  | cons f below ih =>
    obtain ⟨hf, hrest⟩ := h
    refine ⟨?_, ih hrest ?_⟩
    · intro a ha
      rcases hf a ha with hp | hd
      · exact Or.inl hp
      · exact Or.inr (hm a hd)
    · intro a ha
      simp only [List.mem_cons] at ha ⊢
      rcases ha with hd | rfl | hab
      · exact (hm a (Or.inl hd)).imp_right Or.inr
      · exact Or.inr (Or.inl rfl)
      · exact (hm a (Or.inr hab)).imp_right Or.inr

theorem settled_snoc {links : List Link} {done : List String} {id : String}
    (hs : Settled links done) (hid : id ∉ done)
    (hpred : ∀ a, Precedes links a id → a ∈ done) : Settled links (done ++ [id]) := by
  intro a b hab hb
  rcases List.mem_append.mp hb with hb | hb
  · have hlt := hs a b hab hb
    have ha : a ∈ done :=
      List.idxOf_lt_length_iff.mp (hlt.trans (List.idxOf_lt_length_of_mem hb))
    rwa [List.idxOf_append_of_mem ha, List.idxOf_append_of_mem hb]
  · have hbid : b = id := by simpa using hb
    subst hbid
    have ha := hpred a hab
    rw [List.idxOf_append_of_mem ha, List.idxOf_append_of_notMem hid]
    exact Nat.lt_add_right _ (List.idxOf_lt_length_of_mem ha)

/-! ## What a step does -/

variable {nodes : List String} {links : List Link}

theorem good_start {done : List String} {root : String} (h : Good nodes links ⟨[], done⟩)
    (hroot : root ∈ nodes) (hnew : root ∉ done) :
    Good nodes links ⟨[⟨root, predecessors links root⟩], done⟩ := by
  refine ⟨?_, ?_, List.isChain_singleton _, ?_, ?_, h.settled⟩
  · exact List.nodup_cons.mpr ⟨hnew, h.nodup⟩
  · intro id hid
    rcases List.mem_cons.mp hid with rfl | hid
    · exact hroot
    · exact h.known id hid
  · intro f hf a ha
    rw [List.mem_singleton.mp hf] at ha ⊢
    exact mem_predecessors.mp ha
  · exact ⟨fun a ha => Or.inl (mem_predecessors.mpr ha), trivial⟩

/-- A node with nothing pending has all its predecessors ordered, so it can be ordered too. -/
theorem good_finish {id : String} {below : List Frame} {done : List String}
    (h : Good nodes links ⟨⟨id, []⟩ :: below, done⟩) :
    Good nodes links ⟨below, done ++ [id]⟩ := by
  obtain ⟨hnd, hkn, hpath, hpend, ⟨hlast, hlook⟩, hset⟩ := h
  have hperm : (Walk.ids ⟨⟨id, []⟩ :: below, done⟩ ++ done).Perm
      (Walk.ids ⟨below, done ++ [id]⟩ ++ (done ++ [id])) := by
    rw [← List.append_assoc]
    exact (List.perm_append_singleton id _).symm
  refine ⟨hperm.nodup_iff.mp hnd, ?_, hpath.tail, ?_, ?_, ?_⟩
  · exact fun x hx => hkn x (hperm.mem_iff.mpr hx)
  · exact fun f hf => hpend f (List.mem_cons_of_mem _ hf)
  · apply looked_mono below hlook
    intro a ha
    rcases ha with ha | ha
    · exact Or.inl (List.mem_append_left _ ha)
    · exact Or.inl (List.mem_append_right _ ha)
  · apply settled_snoc hset
    · intro hid
      exact (List.nodup_cons.mp hnd).1 (List.mem_append_right _ hid)
    · intro a ha
      simpa using hlast a ha

theorem good_skip {id next : String} {pending : List String} {below : List Frame}
    {done : List String} (h : Good nodes links ⟨⟨id, next :: pending⟩ :: below, done⟩)
    (hnext : next ∈ done) : Good nodes links ⟨⟨id, pending⟩ :: below, done⟩ := by
  obtain ⟨hnd, hkn, hpath, hpend, ⟨hlast, hlook⟩, hset⟩ := h
  refine ⟨hnd, hkn, hpath, ?_, ⟨?_, hlook⟩, hset⟩
  · intro f hf a ha
    rcases List.mem_cons.mp hf with rfl | hf
    · exact hpend ⟨id, next :: pending⟩ (by simp) a (List.mem_cons_of_mem _ ha)
    · exact hpend f (List.mem_cons_of_mem _ hf) a ha
  · intro a ha
    rcases hlast a ha with hp | hd
    · rcases List.mem_cons.mp hp with rfl | hp
      · exact Or.inr (Or.inl hnext)
      · exact Or.inl hp
    · exact Or.inr hd

theorem good_enter {id next : String} {pending : List String} {below : List Frame}
    {done : List String} (hlinks : ∀ a b, Precedes links a b → a ∈ nodes)
    (h : Good nodes links ⟨⟨id, next :: pending⟩ :: below, done⟩)
    (hwait : next ∉ Walk.ids ⟨⟨id, next :: pending⟩ :: below, done⟩) (hdone : next ∉ done) :
    Good nodes links
      ⟨⟨next, predecessors links next⟩ :: ⟨id, pending⟩ :: below, done⟩ := by
  obtain ⟨hnd, hkn, hpath, hpend, ⟨hlast, hlook⟩, hset⟩ := h
  have hedge : Precedes links next id := hpend ⟨id, next :: pending⟩ (by simp) next (by simp)
  refine ⟨?_, ?_, List.IsChain.cons_cons hedge hpath, ?_, ⟨?_, ⟨?_, ?_⟩⟩, hset⟩
  · apply List.nodup_cons.mpr
    refine ⟨?_, hnd⟩
    intro hmem
    rcases List.mem_append.mp hmem with hm | hm
    · exact hwait hm
    · exact hdone hm
  · intro x hx
    rcases List.mem_cons.mp hx with rfl | hx
    · exact hlinks x id hedge
    · exact hkn x hx
  · intro f hf a ha
    rcases List.mem_cons.mp hf with rfl | hf
    · exact mem_predecessors.mp ha
    rcases List.mem_cons.mp hf with rfl | hf
    · exact hpend ⟨id, next :: pending⟩ (by simp) a (List.mem_cons_of_mem _ ha)
    · exact hpend f (List.mem_cons_of_mem _ hf) a ha
  · exact fun a ha => Or.inl (mem_predecessors.mpr ha)
  · intro a ha
    rcases hlast a ha with hp | hd | hab
    · rcases List.mem_cons.mp hp with rfl | hp
      · exact Or.inr (Or.inr (by simp))
      · exact Or.inl hp
    · exact Or.inr (Or.inl hd)
    · cases hab
  · apply looked_mono below hlook
    intro a ha
    rcases ha with hd | hab
    · exact Or.inl hd
    · exact Or.inr (List.mem_append_left [next] hab)

/-- Along the path of waiting nodes the latest one leads to each of the others. -/
theorem reaches_of_path {top : String} {rest : List String} {x : String}
    (h : (top :: rest).IsChain (Precedes links)) (hx : x ∈ top :: rest) :
    ReflTransGen (Precedes links) top x := by
  induction rest generalizing top with
  | nil =>
    rw [List.mem_singleton.mp hx]
  | cons b rest ih =>
    rcases List.mem_cons.mp hx with rfl | hx
    · exact ReflTransGen.refl
    · obtain ⟨hab, hchain⟩ := List.isChain_cons_cons.mp h
      exact ReflTransGen.head hab (ih hchain hx)

/-- A pending predecessor that is itself waiting lies on a cycle. -/
theorem cycle_of_waiting {id next : String} {pending : List String} {below : List Frame}
    {done : List String} (h : Good nodes links ⟨⟨id, next :: pending⟩ :: below, done⟩)
    (hwait : next ∈ Walk.ids ⟨⟨id, next :: pending⟩ :: below, done⟩) :
    TransGen (Precedes links) next next := by
  have hedge : Precedes links next id :=
    h.pending ⟨id, next :: pending⟩ (by simp) next (by simp)
  exact TransGen.head' hedge (reaches_of_path h.path hwait)

/-! ## How long a walk takes -/

/-- The edges into nodes that were not met yet. -/
def unmet (links : List Link) (w : Walk) : Nat :=
  links.countP fun e => decide (e.2 ∉ w.ids ++ w.done)

/-- What a walk has left to do: nodes to order, edges into nodes not met, pending predecessors. -/
def left (nodes : List String) (links : List Link) (w : Walk) : Nat :=
  nodes.countP (fun id => decide (id ∉ w.done)) + unmet links w +
    (w.waiting.flatMap fun f => f.pending).length

/-- Of the items whose key is not in a list, those with the key `x` drop out when `x` joins it. -/
theorem countP_notMem_cons {α : Type} (key : α → String) (items : List α) {x : String}
    {l : List String} (h : x ∉ l) :
    items.countP (fun i => decide (key i ∉ x :: l)) + items.countP (fun i => decide (key i = x)) =
      items.countP (fun i => decide (key i ∉ l)) := by
  induction items with
  | nil => rfl
  | cons i rest ih =>
    simp only [List.countP_cons]
    by_cases hi : key i = x
    · have hout : key i ∉ l := hi ▸ h
      simp only [hi, List.mem_cons, true_or, not_true_eq_false, h, not_false_eq_true, decide_true,
        decide_false, Bool.false_eq_true, if_true, if_false] at ih ⊢
      omega
    · simp only [List.mem_cons, hi, false_or, decide_false, Bool.false_eq_true, if_false] at ih ⊢
      omega

theorem left_finish {id : String} {below : List Frame} {done : List String}
    (h : Good nodes links ⟨⟨id, []⟩ :: below, done⟩) :
    left nodes links ⟨below, done ++ [id]⟩ < left nodes links ⟨⟨id, []⟩ :: below, done⟩ := by
  have hid : id ∈ nodes := h.known id (by simp [Walk.ids])
  have hnew : id ∉ done := fun hd => (List.nodup_cons.mp h.nodup).1 (List.mem_append_right _ hd)
  have hunmet : unmet links ⟨below, done ++ [id]⟩ = unmet links ⟨⟨id, []⟩ :: below, done⟩ := by
    apply List.countP_congr
    intro e _
    simp only [Walk.ids, List.map_cons, List.mem_append, List.mem_cons, List.not_mem_nil, or_false,
      decide_eq_true_eq]
    tauto
  have hnodes : nodes.countP (fun x => decide (x ∉ done ++ [id])) =
      nodes.countP (fun x => decide (x ∉ id :: done)) := by
    apply List.countP_congr
    intro x _
    simp [or_comm]
  have hsplit := countP_notMem_cons (fun x => x) nodes hnew
  have hpos : 0 < nodes.countP (fun x => decide (x = id)) :=
    List.countP_pos_iff.mpr ⟨id, hid, by simp⟩
  simp only [left, hunmet, hnodes, List.flatMap_cons, List.nil_append]
  omega

theorem left_skip {id next : String} {pending : List String} {below : List Frame}
    {done : List String} : left nodes links ⟨⟨id, pending⟩ :: below, done⟩ <
      left nodes links ⟨⟨id, next :: pending⟩ :: below, done⟩ := by
  simp [left, unmet, Walk.ids]

/-- Entering a node turns the edges into it from unmet into pending ones. -/
theorem left_enter {id next : String} {pending : List String} {below : List Frame}
    {done : List String} (hwait : next ∉ Walk.ids ⟨⟨id, next :: pending⟩ :: below, done⟩)
    (hdone : next ∉ done) :
    left nodes links ⟨⟨next, predecessors links next⟩ :: ⟨id, pending⟩ :: below, done⟩ <
      left nodes links ⟨⟨id, next :: pending⟩ :: below, done⟩ := by
  have hnew : next ∉ Walk.ids ⟨⟨id, next :: pending⟩ :: below, done⟩ ++ done :=
    fun hm => (List.mem_append.mp hm).elim hwait hdone
  have hsplit : unmet links ⟨⟨next, predecessors links next⟩ :: ⟨id, pending⟩ :: below, done⟩ +
      (predecessors links next).length = unmet links ⟨⟨id, next :: pending⟩ :: below, done⟩ := by
    rw [length_predecessors]
    exact countP_notMem_cons Prod.snd links hnew
  simp only [left, List.flatMap_cons, List.length_append, List.length_cons]
  omega

/-- A walk with nothing left waits for no node: each waiting node is still to be ordered. -/
theorem waiting_of_left {w : Walk} (h : Good nodes links w) (hleft : left nodes links w = 0) :
    w.waiting = [] := by
  obtain ⟨waiting, done⟩ := w
  rcases waiting with _ | ⟨f, below⟩
  · rfl
  · have hid : f.id ∈ nodes := h.known f.id (by simp [Walk.ids])
    have hnew : f.id ∉ done := fun hd =>
      (List.nodup_cons.mp h.nodup).1 (List.mem_append_right _ hd)
    have hpos : 0 < nodes.countP (fun x => decide (x ∉ done)) :=
      List.countP_pos_iff.mpr ⟨f.id, hid, by simpa using hnew⟩
    simp only [left] at hleft
    omega

theorem left_start_le {done : List String} {root : String} (hnew : root ∉ done) :
    left nodes links ⟨[⟨root, predecessors links root⟩], done⟩ ≤ bound nodes links := by
  have hsplit : unmet links ⟨[⟨root, predecessors links root⟩], done⟩ +
      (predecessors links root).length = links.countP (fun e => decide (e.2 ∉ done)) := by
    rw [length_predecessors]
    exact countP_notMem_cons Prod.snd links hnew
  have hle : links.countP (fun e => decide (e.2 ∉ done)) ≤ links.length := List.countP_le_length
  have hnodes : nodes.countP (fun x => decide (x ∉ done)) ≤ nodes.length := List.countP_le_length
  simp only [left, bound, List.flatMap_cons, List.flatMap_nil, List.append_nil]
  omega

/-! ## The whole walk -/

/-- How a walk may end: in an order that holds what was met, or at a node that lies on a cycle. -/
def Ends (nodes : List String) (links : List Link) (met : List String) :
    Except String (List String) → Prop
  | .ok r => Good nodes links ⟨[], r⟩ ∧ ∀ id ∈ met, id ∈ r
  | .error a => TransGen (Precedes links) a a

theorem ends_of_subset {met met' : List String} {x : Except String (List String)}
    (h : Ends nodes links met x) (hm : ∀ id ∈ met', id ∈ met) : Ends nodes links met' x := by
  cases x with
  | ok r => exact ⟨h.1, fun id hid => h.2 id (hm id hid)⟩
  | error a => exact h

section

variable {id next : String} {pending done : List String} {below : List Frame}

theorem any_waiting {fs : List Frame} {x : String} :
    (fs.any fun f => f.id == x) = true ↔ x ∈ fs.map Frame.id := by
  simp only [List.any_eq_true, List.mem_map, beq_iff_eq]

theorem step_stop (hwait : next ∈ Walk.ids ⟨⟨id, next :: pending⟩ :: below, done⟩) :
    step links ⟨⟨id, next :: pending⟩ :: below, done⟩ = .error next := by
  unfold step
  simp only [any_waiting.mpr hwait, if_true]

theorem step_skip (hwait : next ∉ Walk.ids ⟨⟨id, next :: pending⟩ :: below, done⟩)
    (hdone : next ∈ done) : step links ⟨⟨id, next :: pending⟩ :: below, done⟩ =
      .ok ⟨⟨id, pending⟩ :: below, done⟩ := by
  unfold step
  simp [mt any_waiting.mp hwait, hdone]

theorem step_enter (hwait : next ∉ Walk.ids ⟨⟨id, next :: pending⟩ :: below, done⟩)
    (hdone : next ∉ done) : step links ⟨⟨id, next :: pending⟩ :: below, done⟩ =
      .ok ⟨⟨next, predecessors links next⟩ :: ⟨id, pending⟩ :: below, done⟩ := by
  unfold step
  simp [mt any_waiting.mp hwait, hdone]

end

/-- What one step can do: it keeps the invariant, loses no node and comes closer to the end, or it
stops at a node on a cycle. -/
theorem step_spec (hlinks : ∀ a b, Precedes links a b → a ∈ nodes) {w : Walk}
    (h : Good nodes links w) (hw : w.waiting ≠ []) :
    (∃ w', step links w = .ok w' ∧ Good nodes links w' ∧ left nodes links w' < left nodes links w ∧
      ∀ id ∈ w.ids ++ w.done, id ∈ w'.ids ++ w'.done) ∨
    ∃ a, step links w = .error a ∧ TransGen (Precedes links) a a := by
  obtain ⟨waiting, done⟩ := w
  rcases waiting with _ | ⟨⟨id, _ | ⟨next, pending⟩⟩, below⟩
  · exact absurd rfl hw
  · refine Or.inl ⟨_, rfl, good_finish h, left_finish h, ?_⟩
    intro x hx
    simp only [Walk.ids, List.map_cons, List.mem_append, List.mem_cons] at hx ⊢
    tauto
  by_cases hwait : next ∈ Walk.ids ⟨⟨id, next :: pending⟩ :: below, done⟩
  · exact Or.inr ⟨next, step_stop hwait, cycle_of_waiting h hwait⟩
  by_cases hdone : next ∈ done
  · exact Or.inl ⟨_, step_skip hwait hdone, good_skip h hdone, left_skip, fun x hx => hx⟩
  · refine Or.inl ⟨_, step_enter hwait hdone, good_enter hlinks h hwait hdone,
      left_enter hwait hdone, ?_⟩
    exact fun x hx => List.mem_cons_of_mem _ hx

theorem run_ends (hlinks : ∀ a b, Precedes links a b → a ∈ nodes) (fuel : Nat) (w : Walk)
    (h : Good nodes links w) (hf : left nodes links w ≤ fuel) :
    Ends nodes links (w.ids ++ w.done) (run links fuel w) := by
  induction fuel generalizing w with
  | zero =>
    obtain ⟨waiting, done⟩ := w
    obtain rfl : waiting = [] := waiting_of_left h (Nat.le_zero.mp hf)
    exact ⟨h, fun id hid => hid⟩
  | succ fuel ih =>
    unfold run
    by_cases hw : w.waiting = []
    · obtain ⟨waiting, done⟩ := w
      subst hw
      exact ⟨h, fun id hid => hid⟩
    · have hne : w.waiting.isEmpty = false := by simpa using hw
      simp only [hne, Bool.false_eq_true, if_false]
      rcases step_spec hlinks h hw with ⟨w', hstep, hg, hlt, hkeep⟩ | ⟨a, hstep, hc⟩
      · rw [hstep]
        exact ends_of_subset (ih w' hg (by omega)) hkeep
      · rw [hstep]
        exact hc

theorem visit_ends (hlinks : ∀ a b, Precedes links a b → a ∈ nodes) {done : List String}
    {root : String} (h : Good nodes links ⟨[], done⟩) (hroot : root ∈ nodes) :
    Ends nodes links (root :: done) (visit nodes links done root) := by
  unfold visit
  by_cases hd : root ∈ done
  · simp only [List.contains_eq_mem, hd, decide_true, if_true]
    refine ⟨h, ?_⟩
    intro id hid
    rcases List.mem_cons.mp hid with rfl | hid
    · exact hd
    · exact hid
  · simp only [List.contains_eq_mem, hd, decide_false, Bool.false_eq_true, if_false]
    exact run_ends hlinks _ _ (good_start h hroot hd) (left_start_le hd)

theorem visitAll_ends (hlinks : ∀ a b, Precedes links a b → a ∈ nodes) (roots : List String)
    {done : List String} (h : Good nodes links ⟨[], done⟩) (hroots : ∀ root ∈ roots, root ∈ nodes) :
    Ends nodes links (roots ++ done) (visitAll nodes links roots done) := by
  induction roots generalizing done with
  | nil => exact ⟨h, fun id hid => hid⟩
  | cons root rest ih =>
    unfold visitAll
    have hv := visit_ends hlinks h (hroots root (by simp))
    cases hvisit : visit nodes links done root with
    | error a => rw [hvisit] at hv; exact hv
    | ok done' =>
      rw [hvisit] at hv
      apply ends_of_subset (ih hv.1 (fun r hr => hroots r (List.mem_cons_of_mem _ hr)))
      intro id hid
      simp only [List.cons_append, List.mem_cons, List.mem_append] at hid ⊢
      rcases hid with rfl | hid | hid
      · exact Or.inr (hv.2 id (by simp))
      · exact Or.inl hid
      · exact Or.inr (hv.2 id (by simp [hid]))

theorem good_nil : Good nodes links ⟨[], []⟩ :=
  ⟨List.nodup_nil, by simp [Walk.ids], List.isChain_nil, by simp, trivial, by simp [Settled]⟩

theorem order_ends (ids : List String) (edges : List Link) :
    Ends ids.eraseDups (knownLinks ids.eraseDups edges) ids (order ids edges) := by
  refine ends_of_subset
    (visitAll_ends source_of_knownLinks ids.eraseDups good_nil (fun _ hr => hr)) ?_
  intro id hid
  simpa [List.mem_eraseDups] using hid

/-! ## The laws -/

/-- An order has every id once and nothing else, and every known edge leads forward in it. -/
theorem order_forward {ids : List String} {edges : List Link} {r : List String}
    (h : order ids edges = .ok r) :
    r.Nodup ∧ (∀ id, id ∈ r ↔ id ∈ ids) ∧
      ∀ a b, Feeds ids edges a b → r.idxOf a < r.idxOf b := by
  have hends := order_ends ids edges
  rw [h] at hends
  have hmem : ∀ id, id ∈ r ↔ id ∈ ids :=
    fun id => ⟨fun hid => List.mem_eraseDups.mp (hends.1.known id hid), hends.2 id⟩
  refine ⟨hends.1.nodup, hmem, fun a b hab => ?_⟩
  exact hends.1.settled a b (precedes_knownLinks.mpr hab) ((hmem b).mpr hab.2.2)

theorem idxOf_lt_of_transGen {R : String → String → Prop} {r : List String}
    (h : ∀ a b, R a b → r.idxOf a < r.idxOf b) {a b : String} (hab : TransGen R a b) :
    r.idxOf a < r.idxOf b := by
  induction hab with
  | single hab => exact h _ _ hab
  | tail _ hbc ih => exact ih.trans (h _ _ hbc)

theorem acyclic_iff {ids : List String} {edges : List Link} : Acyclic ids edges ↔
    ∀ a, ¬ TransGen (Precedes (knownLinks ids.eraseDups edges)) a a := by
  have heq : Precedes (knownLinks ids.eraseDups edges) = Feeds ids edges := by
    funext a b
    exact propext precedes_knownLinks
  unfold Acyclic
  rw [heq]

/-- An order is found exactly where the edges between known nodes have no cycle. It has every id
once and nothing else, and every known edge leads forward in it. -/
theorem an_order_puts_every_source_before_its_target (ids : List String) (edges : List Link) :
    ((∃ r, order ids edges = .ok r) ↔ Acyclic ids edges) ∧
    ∀ r, order ids edges = .ok r →
      r.Nodup ∧ (∀ id, id ∈ r ↔ id ∈ ids) ∧
        ∀ a b, Feeds ids edges a b → r.idxOf a < r.idxOf b := by
  refine ⟨⟨?_, ?_⟩, fun r hr => order_forward hr⟩
  · rintro ⟨r, hr⟩ a ha
    exact absurd (idxOf_lt_of_transGen (order_forward hr).2.2 ha) (lt_irrefl _)
  · intro hac
    have hends := order_ends ids edges
    cases hr : order ids edges with
    | ok r => exact ⟨r, rfl⟩
    | error a =>
      rw [hr] at hends
      exact absurd hends (acyclic_iff.mp hac a)

/-- Repeated ids, a repeated edge and an edge from an unknown node do no harm. -/
theorem an_order_of_a_diamond :
    order ["d", "a", "b", "a", "c"]
      [("a", "b"), ("a", "b"), ("b", "d"), ("c", "d"), ("x", "a")] = .ok ["a", "b", "c", "d"] ∧
    ["a", "b", "c", "d"].idxOf "b" < ["a", "b", "c", "d"].idxOf "d" := by
  refine ⟨rfl, ?_⟩
  exact ((an_order_puts_every_source_before_its_target ["d", "a", "b", "a", "c"]
    [("a", "b"), ("a", "b"), ("b", "d"), ("c", "d"), ("x", "a")]).2 _ rfl).2.2 "b" "d"
      ⟨by simp, by simp, by simp⟩

end Flowscript.RunOrder
