-- Filling the slots of a sheet and filling the markers of its print. Where no
-- line of the sheet can be taken for a marker, the two ways give the same
-- text.
import Flowscript.Connector.Snippet
import Flowscript.Proofs.Journal
import Flowscript.Proofs.Lines

namespace Flowscript

open Text (OneLine)

/-! ## Marker lines -/

theorem toList_margin (indent : Int) :
    (margin indent).toList = List.replicate (2 * indent.toNat) ' ' := String.toList_ofList

theorem isPrefixOf?_marker (kind other : SlotKind) :
    kind.marker.toList.isPrefixOf? other.marker.toList = if kind = other then some [] else none := by
  cases kind <;> cases other <;> rfl

/-- A marker at any indent is a marker line of its own kind and of no other. -/
theorem margin?_marker (kind other : SlotKind) (indent : Int) :
    Marker.margin? kind (margin indent ++ other.marker).toList =
      if kind = other then some (margin indent).toList else none := by
  have hblank : ∀ c ∈ (margin indent).toList, Marker.isMargin c = true := by
    intro c hc
    rw [toList_margin] at hc
    rw [List.eq_of_mem_replicate hc]
    rfl
  have hmark : other.marker.toList.dropWhile Marker.isMargin = other.marker.toList ∧
      other.marker.toList.takeWhile Marker.isMargin = [] := by
    cases other <;> exact ⟨rfl, rfl⟩
  have hdrop : (margin indent ++ other.marker).toList.dropWhile Marker.isMargin =
      other.marker.toList := by
    rw [String.toList_append, List.dropWhile_append_of_pos hblank, hmark.1]
  have htake : (margin indent ++ other.marker).toList.takeWhile Marker.isMargin =
      (margin indent).toList := by
    rw [String.toList_append, List.takeWhile_append_of_pos hblank, hmark.2, List.append_nil]
  unfold Marker.margin?
  rw [hdrop, htake, isPrefixOf?_marker]
  by_cases h : kind = other <;> simp [h]

theorem margin?_nil (kind : SlotKind) : Marker.margin? kind [] = none := by
  cases kind <;> rfl

/-! ## Plain sheets -/

/-- A line that stays whole in a text and is not taken for a marker of the kind. -/
def Item.Plain (kind : SlotKind) : Item → Prop
  | .line indent text => OneLine text ∧ Marker.margin? kind (margin indent ++ text).toList = none
  | .slot .. => True

/-- Every line of the sheet stays whole in a text and is not taken for a marker of the kind. -/
def Sheet.Plain (kind : SlotKind) (s : Sheet) : Prop := ∀ item ∈ s.items, item.Plain kind

instance (kind : SlotKind) (item : Item) : Decidable (item.Plain kind) :=
  match item with
  | .line .. => inferInstanceAs (Decidable (_ ∧ _))
  | .slot .. => inferInstanceAs (Decidable True)

instance (kind : SlotKind) (s : Sheet) : Decidable (s.Plain kind) :=
  inferInstanceAs (Decidable (∀ item ∈ s.items, item.Plain kind))

theorem oneLine_margin (indent : Int) : OneLine (margin indent) := by
  unfold OneLine
  rw [toList_margin]
  intro h
  cases List.eq_of_mem_replicate h

theorem oneLine_marker (kind : SlotKind) : OneLine kind.marker := by
  cases kind <;> decide

theorem oneLine_print {kind : SlotKind} {item : Item} (h : item.Plain kind) :
    ∀ l ∈ item.print true, OneLine l := by
  intro l hl
  cases item with
  | slot indent k =>
    rw [List.mem_singleton.mp hl]
    exact (oneLine_margin indent).append (oneLine_marker k)
  | line indent text =>
    rw [List.mem_singleton.mp hl]
    split
    · decide
    · exact (oneLine_margin indent).append h.1

/-- A printed item is a marker line of the kind exactly where it is an open slot of the kind. -/
theorem any_margin?_print {kind : SlotKind} {item : Item} (h : item.Plain kind) :
    (item.print true).any (fun l => (Marker.margin? kind l.toList).isSome) = item.isSlot kind := by
  cases item with
  | slot indent k =>
    simp only [Item.print, if_true, List.any_cons, List.any_nil, Bool.or_false, margin?_marker,
      Item.isSlot]
    by_cases hk : kind = k
    · simp [hk]
    · simp [hk, Ne.symm hk]
  | line indent text =>
    by_cases ht : text = ""
    · simp [Item.print, ht, Item.isSlot, margin?_nil]
    · simp only [Item.print, ht, if_false, List.any_cons, List.any_nil, h.2, Option.isSome_none,
        Bool.or_false, Item.isSlot]

/-- What the marker lines of a printed item become is what the filled item prints. -/
theorem fillLine_print {kind : SlotKind} {item : Item} (lines : List String)
    (h : item.Plain kind) :
    (item.print true).flatMap (fun l => Marker.fillLine kind lines l.toList) =
      (item.fill kind lines).flatMap (Item.print true) := by
  cases item with
  | slot indent k =>
    simp only [Item.print, if_true, List.flatMap_cons, List.flatMap_nil, List.append_nil,
      Marker.fillLine, margin?_marker, Item.fill]
    by_cases hk : kind = k
    · subst hk
      simp only [if_true, List.flatMap_map]
      induction lines with
      | nil => rfl
      | cons l rest ih =>
        rw [List.map_cons, List.flatMap_cons, ih]
        by_cases hl : l = "" <;> simp [Item.ofText, Item.print, hl]
    · simp [hk, Ne.symm hk, Item.print]
  | line indent text =>
    by_cases ht : text = ""
    · simp [Item.print, ht, Item.fill, Marker.fillLine, margin?_nil]
    · simp only [Item.print, ht, if_false, List.flatMap_cons, List.flatMap_nil, Marker.fillLine,
        h.2, Item.fill, String.ofList_toList]

/-! ## Whole sheets -/

theorem oneLine_lines {kind : SlotKind} {s : Sheet} (h : s.Plain kind) :
    ∀ l ∈ s.lines true, OneLine l := by
  intro l hl
  obtain ⟨item, hitem, hl⟩ := List.mem_flatMap.mp hl
  exact oneLine_print (h item hitem) l hl

theorem cutAt_render {kind : SlotKind} {s : Sheet} (h : s.Plain kind) (hne : s.lines true ≠ []) :
    Text.cutAt '\n' (s.render true).toList = (s.lines true).map String.toList :=
  Text.cutAt_joinLines hne (oneLine_lines h)

/-- The print of a sheet has a marker line of the kind exactly where a slot of the kind is open. -/
theorem occursIn_render {kind : SlotKind} {s : Sheet} (h : s.Plain kind) :
    Marker.occursIn kind (s.render true) = s.hasSlot kind := by
  have hany : (s.lines true).any (fun l => (Marker.margin? kind l.toList).isSome) =
      s.hasSlot kind := by
    unfold Sheet.lines Sheet.hasSlot
    rw [List.any_flatMap, Bool.eq_iff_iff, List.any_eq_true, List.any_eq_true]
    refine exists_congr fun item => and_congr_right fun hitem => ?_
    rw [any_margin?_print (h item hitem)]
  unfold Marker.occursIn
  by_cases hne : s.lines true = []
  · rw [← hany, hne]
    simp [Sheet.render, hne, Text.joinLines, Text.joinWith, Text.cutAt, margin?_nil]
  · rw [cutAt_render h hne, List.any_map, ← hany]
    rfl

theorem fill_render {kind : SlotKind} {s : Sheet} (lines : List String) (h : s.Plain kind) :
    Marker.fill kind lines (s.render true) = (s.fill kind lines).render true := by
  have hlines : (s.lines true).flatMap (fun l => Marker.fillLine kind lines l.toList) =
      (s.fill kind lines).lines true := by
    unfold Sheet.lines Sheet.fill
    rw [List.flatMap_assoc, List.flatMap_assoc]
    exact List.flatMap_congr fun item hitem => fillLine_print lines (h item hitem)
  unfold Marker.fill
  by_cases hne : s.lines true = []
  · rw [hne] at hlines
    rw [Sheet.render, Sheet.render, hne, ← hlines]
    simp [Text.joinLines, Text.joinWith, Text.cutAt, Marker.fillLine, margin?_nil]
  · rw [cutAt_render h hne, List.flatMap_map, hlines]
    rfl

theorem Item.fill_of_isSlot_eq_false {kind : SlotKind} {item : Item} (lines : List String)
    (h : item.isSlot kind = false) : item.fill kind lines = [item] := by
  cases item with
  | slot indent k =>
    simp only [Item.isSlot, beq_eq_false_iff_ne] at h
    simp [Item.fill, h]
  | line indent text => rfl

/-- Items among which there is no slot of the kind stay as they are. -/
theorem flatMap_fill_of_isSlot_eq_false {kind : SlotKind} {items : List Item} (lines : List String)
    (h : ∀ item ∈ items, item.isSlot kind = false) : items.flatMap (·.fill kind lines) = items := by
  rw [List.flatMap_congr fun item hitem => Item.fill_of_isSlot_eq_false lines (h item hitem)]
  simp

theorem fill_of_hasSlot_eq_false {kind : SlotKind} {s : Sheet} (lines : List String)
    (h : s.hasSlot kind = false) : s.fill kind lines = s := by
  unfold Sheet.fill
  rw [flatMap_fill_of_isSlot_eq_false lines (by simpa [Sheet.hasSlot] using h)]

/-! ## The law -/

/-- Filling a kind of slot in a sheet, or its markers in the print of the sheet, gives the same text:
for any number of slots at any indents, for any snippet, and where there is no slot of the kind. -/
theorem filling_the_print_prints_the_filled_sheet (s : Sheet) (kind : SlotKind) (f : Facts)
    (snippet : List String) (hplain : s.Plain kind)
    (hsnippet : (Snippet.lines kind f).outcome = .ok snippet) :
    ∃ filled, (Snippet.intoSheet s kind f).outcome = .ok (filled, s.hasSlot kind) ∧
      (Snippet.intoText (s.render true) kind f).outcome = .ok (filled.render true) := by
  refine ⟨s.fill kind snippet, ?_, ?_⟩
  · unfold Snippet.intoSheet
    by_cases h : s.hasSlot kind = true
    · rw [if_pos h, Traced.bind_eq_ok]
      exact ⟨snippet, hsnippet, by rw [h]; rfl⟩
    · rw [if_neg h, fill_of_hasSlot_eq_false snippet (by simpa using h)]
      simp [h]
  · unfold Snippet.intoText
    rw [occursIn_render hplain]
    by_cases h : s.hasSlot kind = true
    · rw [if_pos h, Traced.bind_eq_ok]
      exact ⟨snippet, hsnippet, by rw [fill_render snippet hplain]; rfl⟩
    · rw [if_neg h, fill_of_hasSlot_eq_false snippet (by simpa using h)]
      rfl

/-- Two slots of the kind at different indents, an empty line between them, and a slot of another
kind that stays open. -/
theorem filling_the_print_of_two_slots :
    ∃ filled,
      (Snippet.intoSheet ⟨[.line 0 "let response;", .slot 1 .error, .line 0 "", .slot 2 .error,
        .slot 0 .auth], 0⟩ .error {}).outcome = .ok (filled, true) ∧
      (Snippet.intoText (Sheet.render ⟨[.line 0 "let response;", .slot 1 .error, .line 0 "",
        .slot 2 .error, .slot 0 .auth], 0⟩ true) .error {}).outcome = .ok (filled.render true) :=
  filling_the_print_prints_the_filled_sheet
    ⟨[.line 0 "let response;", .slot 1 .error, .line 0 "", .slot 2 .error, .slot 0 .auth], 0⟩
    .error {} (Snippet.errorLines {}) (by decide) rfl

end Flowscript
