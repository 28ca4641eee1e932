-- The book of script properties and their readers. It can be told at once
-- from what the nodes read: each property stands where it is first met, and
-- its readers stand in the order of the nodes, each once.
import Flowscript.Bundle.Secret
import Flowscript.Proofs.Journal
import Mathlib.Data.List.Induction
import Mathlib.Data.List.Nodup

namespace Flowscript.Secret

/-! ## First occurrences -/

/-- The list with an item at its end, unless it has the item already. -/
def addNew (l : List String) (a : String) : List String := if a ∈ l then l else l ++ [a]

theorem mem_addNew {l : List String} {a b : String} : b ∈ addNew l a ↔ b ∈ l ∨ b = a := by
  unfold addNew
  split
  · rename_i ha
    exact ⟨Or.inl, fun h => h.elim id fun he => he ▸ ha⟩
  · simp

theorem addNew_addNew (l : List String) (a : String) : addNew (addNew l a) a = addNew l a :=
  if_pos (mem_addNew.mpr (Or.inr rfl))

theorem eraseDups_concat (l : List String) (a : String) :
    (l ++ [a]).eraseDups = addNew l.eraseDups a := by
  rw [List.eraseDups_append, addNew]
  by_cases ha : a ∈ l <;> simp [List.removeAll, ha, List.eraseDups_cons]

theorem nodup_eraseDups (l : List String) : l.eraseDups.Nodup := by
  induction l using List.reverseRecOn with
  | nil => exact List.nodup_nil
  | append_singleton l a ih =>
    rw [eraseDups_concat, addNew]
    split
    · exact ih
    · rename_i ha
      exact List.concat_eq_append ▸ ih.concat ha

theorem eraseDups_sublist (l : List String) : l.eraseDups.Sublist l := by
  induction l using List.reverseRecOn with
  | nil => exact .slnil
  | append_singleton l a ih =>
    rw [eraseDups_concat, addNew]
    split
    · exact ih.trans (List.sublist_append_left ..)
    · exact ih.append_right _

/-! ## The book of readers -/

/-- What nodes read: the id of each with the names of its properties, in order. -/
abbrev Readings := List (String × List String)

/-- The properties in the order in which they are met. -/
def Readings.names (rs : Readings) : List String := (rs.flatMap Prod.snd).eraseDups

/-- The readers of a property in the order of the nodes. -/
def Readings.readers (rs : Readings) (name : String) : List String :=
  ((rs.filter fun r => name ∈ r.2).map Prod.fst).eraseDups

/-- The entries that readings lead to. -/
def Readings.book (rs : Readings) : List Entry :=
  rs.names.map fun name => ⟨.text name, rs.readers name⟩

theorem mem_names {rs : Readings} {name : String} :
    name ∈ rs.names ↔ ∃ r ∈ rs, name ∈ r.2 := by
  rw [Readings.names, List.mem_eraseDups, List.mem_flatMap]

theorem mem_readers {rs : Readings} {name id : String} :
    id ∈ rs.readers name ↔ ∃ r ∈ rs, name ∈ r.2 ∧ r.1 = id := by
  simp only [Readings.readers, List.mem_eraseDups, List.mem_map, List.mem_filter,
    decide_eq_true_eq, and_assoc]

theorem readers_sublist (rs : Readings) (name : String) :
    (rs.readers name).Sublist (rs.map Prod.fst) :=
  (eraseDups_sublist _).trans (List.filter_sublist.map _)

theorem names_concat (rs : Readings) (id : String) (names : List String) (name : String) :
    Readings.names (rs ++ [(id, names ++ [name])]) =
      addNew (Readings.names (rs ++ [(id, names)])) name := by
  have hsplit : (rs ++ [(id, names ++ [name])]).flatMap Prod.snd =
      (rs ++ [(id, names)]).flatMap Prod.snd ++ [name] := by simp
  unfold Readings.names
  rw [hsplit, eraseDups_concat]

theorem readers_append (rs : Readings) (id : String) (names : List String) (s : String) :
    Readings.readers (rs ++ [(id, names)]) s =
      if s ∈ names then addNew (rs.readers s) id else rs.readers s := by
  unfold Readings.readers
  rw [List.filter_append, List.map_append]
  by_cases hs : s ∈ names
  · rw [if_pos hs, ← eraseDups_concat]
    simp [hs]
  · simp [hs]

theorem readers_concat (rs : Readings) (id : String) (names : List String) (name s : String) :
    Readings.readers (rs ++ [(id, names ++ [name])]) s =
      if s = name then addNew (Readings.readers (rs ++ [(id, names)]) s) id
      else Readings.readers (rs ++ [(id, names)]) s := by
  rw [readers_append, readers_append]
  by_cases he : s = name
  · subst he
    by_cases hs : s ∈ names
    · simp [hs, addNew_addNew]
    · simp [hs]
  · simp [he]

/-- Entries of other properties keep their readers. -/
theorem map_of_notMem {names : List String} {name : String} (h : name ∉ names)
    (f : String → List String) (id : String) :
    names.map (fun s => (⟨.text s, if s = name then addNew (f s) id else f s⟩ : Entry)) =
      names.map fun s => ⟨.text s, f s⟩ := by
  refine List.map_congr_left fun s hs => ?_
  have hne : ¬ s = name := fun he => h (he ▸ hs)
  rw [if_neg hne]

/-- Adding a reader changes the entry of the property, or makes one at the end. -/
theorem addReader_map {names : List String} (hnodup : names.Nodup) (f : String → List String)
    (name id : String) :
    addReader (.text name) id (names.map fun s => ⟨.text s, f s⟩) =
      if name ∈ names then
        names.map fun s => ⟨.text s, if s = name then addNew (f s) id else f s⟩
      else names.map (fun s => ⟨.text s, f s⟩) ++ [⟨.text name, [id]⟩] := by
  induction names with
  | nil => rfl
  | cons s rest ih =>
    obtain ⟨hs, hrest⟩ := List.nodup_cons.mp hnodup
    by_cases he : s = name
    · subst he
      rw [if_pos (List.mem_cons_self ..), List.map_cons, List.map_cons, if_pos rfl, map_of_notMem hs]
      simp [addReader, Value.sameKey, addNew]
    · have hmem : name ∈ s :: rest ↔ name ∈ rest := by simp [Ne.symm he]
      simp only [List.map_cons, addReader, Value.sameKey, beq_iff_eq, he, if_false, ih hrest, hmem]
      split <;> rfl

theorem readers_eq_nil {rs : Readings} {name : String} (h : name ∉ rs.names) :
    rs.readers name = [] := by
  refine List.eq_nil_iff_forall_not_mem.mpr fun id hid => h ?_
  obtain ⟨r, hr, hname, _⟩ := mem_readers.mp hid
  exact mem_names.mpr ⟨r, hr, hname⟩

/-- Adding a reader to the book is reading one property more. -/
theorem addReader_book (rs : Readings) (id : String) (names : List String) (name : String) :
    addReader (.text name) id (Readings.book (rs ++ [(id, names)])) =
      Readings.book (rs ++ [(id, names ++ [name])]) := by
  have hnodup : (Readings.names (rs ++ [(id, names)])).Nodup := nodup_eraseDups _
  unfold Readings.book
  rw [addReader_map hnodup, names_concat, addNew]
  simp only [readers_concat]
  by_cases hmem : name ∈ Readings.names (rs ++ [(id, names)])
  · rw [if_pos hmem, if_pos hmem]
  · rw [if_neg hmem, if_neg hmem, List.map_append, List.map_singleton, if_pos rfl,
      readers_eq_nil hmem, map_of_notMem hmem]
    rfl

theorem foldl_addReader (rs : Readings) (id : String) (before names : List String) :
    (names.map Value.text).foldl (fun known name => addReader name id known)
        (Readings.book (rs ++ [(id, before)])) =
      Readings.book (rs ++ [(id, before ++ names)]) := by
  induction names generalizing before with
  | nil => simp
  | cons name rest ih =>
    rw [List.map_cons, List.foldl_cons, addReader_book, ih]
    simp

theorem book_append_nil (rs : Readings) (id : String) :
    Readings.book (rs ++ [(id, [])]) = rs.book := by
  have hnames : Readings.names (rs ++ [(id, [])]) = rs.names := by simp [Readings.names]
  unfold Readings.book
  rw [hnames]
  exact List.map_congr_left fun s _ => by rw [readers_append, if_neg List.not_mem_nil]

/-- Collecting goes through the nodes in order, and the book is that of all they read. -/
theorem collect_eq_book {c : Choices} {nodes : List PlannedNode} {rs : Readings}
    (h : List.Forall₂ (fun n r => r.1 = n.id ∧ ofNode n c = .ok (r.2.map .text)) nodes rs)
    (before : Readings) : collect c before.book nodes = .ok (Readings.book (before ++ rs)) := by
  induction h generalizing before with
  | nil => rw [collect, List.append_nil]
  | @cons n r nodes rs hfirst _ ih =>
    obtain ⟨id, names⟩ := r
    obtain ⟨rfl, hnames⟩ := hfirst
    have hadd : (names.map Value.text).foldl (fun known name => addReader name n.id known)
        before.book = Readings.book (before ++ [(n.id, names)]) := by
      rw [← book_append_nil before n.id, foldl_addReader, List.nil_append]
    rw [collect, hnames]
    refine Eq.trans ?_ ((ih (before ++ [(n.id, names)])).trans (by simp))
    rw [← hadd]
    rfl

end Flowscript.Secret
