-- Filling the slots of sheets that are put together. A sheet is attached at
-- the indent of another one, and lines go in at the indent of their slot, so
-- it does not matter which happens first. Two kinds of slots are filled in
-- either order, and what is no slot of the kind stays as it was.
import Flowscript.Proofs.Filling

namespace Flowscript

section

variable {kind other : SlotKind} {lines more : List String}

/-! ## Items -/

namespace Item

theorem shift_ofText (amount indent : Int) (text : String) :
    (ofText indent text).shift amount = ofText (indent + amount) text := by
  by_cases h : text = "" <;> simp [ofText, shift, h]

theorem fill_slot_self (kind : SlotKind) (lines : List String) (indent : Int) :
    (slot indent kind).fill kind lines = lines.map (ofText indent) := if_pos rfl

theorem fill_slot_of_ne {k : SlotKind} (h : k ≠ kind) (lines : List String) (indent : Int) :
    (slot indent k).fill kind lines = [slot indent k] := if_neg h

/-- A slot that is moved and then filled has the lines of the filled slot, moved. -/
theorem fill_shift (kind : SlotKind) (lines : List String) (amount : Int) (item : Item) :
    (item.shift amount).fill kind lines = (item.fill kind lines).map (shift amount) := by
  cases item with
  | line indent text => rfl
  | slot indent k =>
    rw [shift]
    by_cases h : k = kind
    · subst h
      rw [fill_slot_self, fill_slot_self, List.map_map]
      exact List.map_congr_left fun text _ => (shift_ofText amount indent text).symm
    · rw [fill_slot_of_ne h, fill_slot_of_ne h]
      rfl

theorem flatMap_fill_ofText (kind : SlotKind) (lines texts : List String) (indent : Int) :
    (texts.map (ofText indent)).flatMap (·.fill kind lines) = texts.map (ofText indent) := by
  refine flatMap_fill_of_isSlot_eq_false lines fun item hitem => ?_
  obtain ⟨text, _, rfl⟩ := List.mem_map.mp hitem
  rfl

theorem fill_fill (h : other ≠ kind) (item : Item) :
    (item.fill kind lines).flatMap (·.fill other more) =
      (item.fill other more).flatMap (·.fill kind lines) := by
  cases item with
  | line indent text => rfl
  | slot indent k =>
    by_cases hk : k = kind
    · subst hk
      rw [fill_slot_self, fill_slot_of_ne h.symm, flatMap_fill_ofText, List.flatMap_singleton,
        fill_slot_self]
    · rw [fill_slot_of_ne hk, List.flatMap_singleton]
      by_cases hother : k = other
      · subst hother
        rw [fill_slot_self, flatMap_fill_ofText]
      · rw [fill_slot_of_ne hother, List.flatMap_singleton, fill_slot_of_ne hk]

theorem isSlot_of_mem_fill {item filled : Item} (h : filled ∈ item.fill kind lines) :
    filled.isSlot kind = false := by
  cases item with
  | line indent text => rw [List.mem_singleton.mp h]; rfl
  | slot indent k =>
    rw [fill] at h
    split at h
    · obtain ⟨text, _, rfl⟩ := List.mem_map.mp h
      rfl
    · rename_i hk
      rw [List.mem_singleton.mp h]
      simpa [isSlot] using hk

end Item

/-! ## Sheets -/

namespace Sheet

theorem fill_attach (kind : SlotKind) (lines : List String) (outer inner : Sheet) :
    (outer.attach inner).fill kind lines =
      (outer.fill kind lines).attach (inner.fill kind lines) := by
  simp only [attach, add, fill, List.flatMap_append, List.flatMap_map, Item.fill_shift,
    List.map_flatMap]

theorem fill_fill_comm (h : other ≠ kind) (s : Sheet) :
    (s.fill kind lines).fill other more = (s.fill other more).fill kind lines := by
  simp only [fill, List.flatMap_assoc, Item.fill_fill h]

theorem hasSlot_fill (kind : SlotKind) (lines : List String) (s : Sheet) :
    (s.fill kind lines).hasSlot kind = false := by
  rw [hasSlot, List.any_eq_false]
  intro item hitem
  obtain ⟨old, _, hold⟩ := List.mem_flatMap.mp hitem
  simp [Item.isSlot_of_mem_fill hold]

end Sheet

/-- Items are made of those before the first slot of a kind, and of runs that each start with such a
slot and go up to the next. -/
theorem exists_runs (kind : SlotKind) (items : List Item) :
    ∃ (first : List Item) (runs : List (Int × List Item)),
      (∀ item ∈ first, item.isSlot kind = false) ∧
      (∀ run ∈ runs, ∀ item ∈ run.2, item.isSlot kind = false) ∧
      items = first ++ runs.flatMap fun run => .slot run.1 kind :: run.2 := by
  induction items with
  | nil => exact ⟨[], [], by simp, by simp, rfl⟩
  | cons item rest ih =>
    obtain ⟨first, runs, hfirst, hruns, rfl⟩ := ih
    cases hslot : item.isSlot kind with
    | false => exact ⟨item :: first, runs, List.forall_mem_cons.mpr ⟨hslot, hfirst⟩, hruns, rfl⟩
    | true =>
      cases item with
      | line indent text => cases hslot
      | slot indent k =>
        rw [Item.isSlot, beq_iff_eq] at hslot
        subst hslot
        exact ⟨[], (indent, first) :: runs, by simp, List.forall_mem_cons.mpr ⟨hfirst, hruns⟩, rfl⟩

theorem flatMap_fill_runs {first : List Item} {runs : List (Int × List Item)}
    (hfirst : ∀ item ∈ first, item.isSlot kind = false)
    (hruns : ∀ run ∈ runs, ∀ item ∈ run.2, item.isSlot kind = false) :
    (first ++ runs.flatMap fun run => .slot run.1 kind :: run.2).flatMap (·.fill kind lines) =
      first ++ runs.flatMap fun run => lines.map (.ofText run.1) ++ run.2 := by
  rw [List.flatMap_append, flatMap_fill_of_isSlot_eq_false lines hfirst, List.flatMap_assoc]
  refine congrArg _ (List.flatMap_congr fun run hrun => ?_)
  rw [List.flatMap_cons, flatMap_fill_of_isSlot_eq_false lines (hruns run hrun),
    Item.fill_slot_self]

end

/-! ## The law -/

/-- A kind of slot is filled in a sheet before it is attached to one without such slots, or in both
after it is attached, with the same result. Two kinds are filled in either order. Filling leaves no
slot of the kind, and puts the lines at the indent of each slot in the place of the slot; the items
before, between and behind the slots stay what they are, where they are. -/
theorem filling_commutes_with_attaching_and_keeps_the_rest (kind : SlotKind) (lines : List String) :
    (∀ inner outer : Sheet, outer.hasSlot kind = false →
      outer.attach (inner.fill kind lines) = (outer.attach inner).fill kind lines) ∧
    (∀ (s : Sheet) (other : SlotKind) (more : List String), other ≠ kind →
      (s.fill kind lines).fill other more = (s.fill other more).fill kind lines) ∧
    ∀ s : Sheet, (s.fill kind lines).hasSlot kind = false ∧
      ∃ (first : List Item) (runs : List (Int × List Item)),
        (∀ item ∈ first, item.isSlot kind = false) ∧
        (∀ run ∈ runs, ∀ item ∈ run.2, item.isSlot kind = false) ∧
        s.items = (first ++ runs.flatMap fun run => .slot run.1 kind :: run.2) ∧
        (s.fill kind lines).items =
          first ++ runs.flatMap fun run => lines.map (.ofText run.1) ++ run.2 := by
  refine ⟨fun inner outer hnone => ?_, fun s other more hne => Sheet.fill_fill_comm hne s,
    fun s => ⟨Sheet.hasSlot_fill kind lines s, ?_⟩⟩
  · rw [Sheet.fill_attach, fill_of_hasSlot_eq_false lines hnone]
  · obtain ⟨first, runs, hfirst, hruns, hitems⟩ := exists_runs kind s.items
    refine ⟨first, runs, hfirst, hruns, hitems, ?_⟩
    rw [Sheet.fill, hitems, flatMap_fill_runs hfirst hruns]

/-- A sheet with slots at two depths and an empty line, attached at an indent of three, and a snippet
with an empty line. -/
theorem filling_commutes_with_attaching_two_depths :
    Sheet.hasSlot ⟨[.line 0 "try \x7b", .slot 2 .error], 3⟩ .auth = false ∧
    Sheet.attach ⟨[.line 0 "try \x7b", .slot 2 .error], 3⟩
        (Sheet.fill ⟨[.slot 1 .auth, .line 0 "", .slot 0 .auth, .slot 0 .error], 0⟩ .auth
          ["sign();", "", "  send();"]) =
      (Sheet.attach ⟨[.line 0 "try \x7b", .slot 2 .error], 3⟩
        ⟨[.slot 1 .auth, .line 0 "", .slot 0 .auth, .slot 0 .error], 0⟩).fill .auth
          ["sign();", "", "  send();"] ∧
    SlotKind.error ≠ .auth ∧
    (Sheet.fill ⟨[.slot 1 .auth, .slot 0 .error], 0⟩ .auth ["sign();", "", "  send();"]).fill .error
        ["stop();"] =
      (Sheet.fill ⟨[.slot 1 .auth, .slot 0 .error], 0⟩ .error ["stop();"]).fill .auth
        ["sign();", "", "  send();"] :=
  ⟨rfl, (filling_commutes_with_attaching_and_keeps_the_rest .auth _).1 _ _ rfl, by decide,
    (filling_commutes_with_attaching_and_keeps_the_rest .auth _).2.1 _ .error _ (by decide)⟩

end Flowscript
