-- Resolving inside a value. Resolving replaces the texts of a value and
-- nothing else, so what a path finds in the resolved value is what it finds
-- in the value, resolved. A name of a field is no text of the value, whatever
-- it looks like, and a text that comes out as JSON is still one text.
import Flowscript.Proofs.Paths

namespace Flowscript

namespace Value

/-! ## The texts of a value -/

mutual

/-- The value with a function applied to every text in it; the names of fields are left alone. -/
def withTexts (f : String → String) : Value → Value
  | .text s => .text (f s)
  | .list items => .list (itemsWithTexts f items)
  | .object fields => .object (fieldsWithTexts f fields)
  | v => v

/-- The items of a list with a function applied to every text in them. -/
def itemsWithTexts (f : String → String) : List Value → List Value
  | [] => []
  | v :: rest => withTexts f v :: itemsWithTexts f rest

/-- The fields of an object with a function applied to every text in them. -/
def fieldsWithTexts (f : String → String) : List (String × Value) → Fields
  | [] => []
  | (k, v) :: rest => (k, withTexts f v) :: fieldsWithTexts f rest

end

mutual

/-- The texts in a value, in their order. -/
def texts : Value → List String
  | .text s => [s]
  | .list items => itemTexts items
  | .object fields => fieldTexts fields
  | _ => []

/-- The texts in the items of a list. -/
def itemTexts : List Value → List String
  | [] => []
  | v :: rest => texts v ++ itemTexts rest

/-- The texts in the fields of an object. -/
def fieldTexts : List (String × Value) → List String
  | [] => []
  | (_, v) :: rest => texts v ++ fieldTexts rest

end

/-- The value with its texts emptied. It has the names of all fields in their order, lists of the
same lengths, and every other leaf. -/
def outline (v : Value) : Value := v.withTexts fun _ => ""

theorem withTexts_list (f : String → String) (items : List Value) :
    withTexts f (.list items) = .list (items.map (withTexts f)) := by
  rw [withTexts]
  congr 1
  induction items with
  | nil => rfl
  | cons v rest ih => rw [itemsWithTexts, ih, List.map_cons]

theorem withTexts_object (f : String → String) (fields : Fields) :
    withTexts f (.object fields) = .object (fields.map fun e => (e.1, withTexts f e.2)) := by
  rw [withTexts]
  congr 1
  induction fields with
  | nil => rfl
  | cons e rest ih => rw [fieldsWithTexts, ih, List.map_cons]

theorem texts_list (items : List Value) : texts (.list items) = items.flatMap texts := by
  rw [texts]
  induction items with
  | nil => rfl
  | cons v rest ih => rw [itemTexts, ih, List.flatMap_cons]

theorem texts_object (fields : Fields) :
    texts (.object fields) = fields.flatMap fun e => texts e.2 := by
  rw [texts]
  induction fields with
  | nil => rfl
  | cons e rest ih => rw [fieldTexts, ih, List.flatMap_cons]

/-- A law of values holds if it holds of values without parts, and of lists and objects whose parts
all obey it. -/
theorem by_parts {P : Value → Prop} (scalar : ∀ v : Value, v.isKey = true → P v)
    (list : ∀ items, (∀ v ∈ items, P v) → P (.list items))
    (object : ∀ fields, (∀ e ∈ fields, P e.2) → P (.object fields)) (v : Value) : P v := by
  refine @Value.rec P (fun items => ∀ v ∈ items, P v) (fun fields => ∀ e ∈ fields, P e.2)
    (fun e => P e.2) (scalar _ rfl) (fun b => scalar (.bool b) rfl) (fun n => scalar (.int n) rfl)
    (fun x => scalar (.real x) rfl) (fun s => scalar (.text s) rfl) list object ?_ ?_ ?_ ?_ ?_ v
  · simp
  · intro v rest hv hrest
    exact List.forall_mem_cons.mpr ⟨hv, hrest⟩
  · simp
  · intro e rest he hrest
    exact List.forall_mem_cons.mpr ⟨he, hrest⟩
  · intro k v hv
    exact hv

theorem outline_withTexts (f : String → String) (v : Value) :
    (v.withTexts f).outline = v.outline := by
  unfold outline
  induction v using by_parts with
  | scalar v hv =>
    cases v with
    | list items => cases hv
    | object fields => cases hv
    | _ => rfl
  | list items ih =>
    rw [withTexts_list, withTexts_list, withTexts_list, List.map_map]
    exact congrArg _ (List.map_congr_left ih)
  | object fields ih =>
    rw [withTexts_object, withTexts_object, withTexts_object, List.map_map]
    exact congrArg _ (List.map_congr_left fun e he => Prod.ext rfl (ih e he))

theorem texts_withTexts (f : String → String) (v : Value) :
    (v.withTexts f).texts = v.texts.map f := by
  induction v using by_parts with
  | scalar v hv =>
    cases v with
    | list items => cases hv
    | object fields => cases hv
    | _ => rfl
  | list items ih =>
    rw [withTexts_list, texts_list, texts_list, List.flatMap_map, List.map_flatMap]
    exact List.flatMap_congr ih
  | object fields ih =>
    rw [withTexts_object, texts_object, texts_object, List.flatMap_map, List.map_flatMap]
    exact List.flatMap_congr ih

end Value

namespace Placeholder

open Value

/-! ## Paths through the texts -/

theorem get?_withTexts (f : String → String) (fields : Fields) (key : String) :
    Fields.get? (fields.map fun e => (e.1, withTexts f e.2)) key =
      (Fields.get? fields key).map (withTexts f) := by
  unfold Fields.get?
  induction fields with
  | nil => rfl
  | cons e rest ih =>
    rw [List.map_cons, List.lookup_cons, List.lookup_cons]
    cases key == e.1 with
    | true => rfl
    | false => exact ih

theorem child_withTexts (f : String → String) (v : Value) (part : String) :
    child (v.withTexts f) part = (child v part).map (Option.map (withTexts f)) := by
  cases v with
  | object fields =>
    rw [withTexts_object, child, child, get?_withTexts]
    rfl
  | list items =>
    rw [withTexts_list]
    by_cases hposition : IsPosition part
    · rw [child_position hposition, child_position hposition, List.getElem?_map]
      split <;> rfl
    · rw [child_misnamed hposition, child_misnamed hposition]
      rfl
  | _ => rfl

theorem walk_withTexts (f : String → String) (v : Value) (parts : List String) :
    walk (v.withTexts f) parts = (walk v parts).map (Option.map (withTexts f)) := by
  induction parts generalizing v with
  | nil => rfl
  | cons part rest ih =>
    rw [walk, walk, child_withTexts]
    cases child v part with
    | error e => rfl
    | ok found =>
      cases found with
      | none => rfl
      | some below => exact ih below

/-- The texts below a value are texts of the value. -/
theorem texts_of_enters {v w : Value} {part : String} (h : Enters v part w) :
    ∀ s ∈ w.texts, s ∈ v.texts := by
  intro s hs
  cases h with
  | @field fields _ _ hget =>
    obtain ⟨front, back, hsplit, _⟩ := List.lookup_eq_some_iff.mp hget
    rw [texts_object, hsplit]
    exact List.mem_flatMap.mpr ⟨(part, w), by simp, hs⟩
  | item _ hget =>
    rw [texts_list]
    exact List.mem_flatMap.mpr ⟨w, List.mem_of_getElem? hget, hs⟩

theorem texts_of_walk {v w : Value} {parts : List String} (h : walk v parts = .ok (some w)) :
    ∀ s ∈ w.texts, s ∈ v.texts := by
  induction parts generalizing v with
  | nil =>
    cases h
    exact fun s hs => hs
  | cons part rest ih =>
    intro s hs
    rw [walk] at h
    rcases child_spec v part with ⟨below, hchild, henter, _⟩ | ⟨hchild, _⟩ | ⟨n, hchild, _⟩
    · rw [hchild] at h
      exact texts_of_enters henter s (ih h s hs)
    · rw [hchild] at h
      cases h
    · rw [hchild] at h
      cases h

/-! ## Resolving texts -/

/-- The text that resolving writes, piece by piece. -/
def filledText (values : Value) (s : String) : String :=
  String.ofList ((pieces s.toList).flatMap (Piece.filled values))

theorem resolveItems_eq {values : Value} {f : String → String} {items : List Value}
    (h : ∀ v ∈ items, resolveValue values v = .ok (v.withTexts f)) :
    resolveItems values items = .ok (items.map (withTexts f)) := by
  induction items with
  | nil => rfl
  | cons v rest ih =>
    rw [resolveItems, h v (by simp), ih fun w hw => h w (List.mem_cons_of_mem _ hw)]
    rfl

theorem resolveFields_eq {values : Value} {f : String → String} {fields : Fields}
    (h : ∀ e ∈ fields, resolveValue values e.2 = .ok (e.2.withTexts f)) :
    resolveFields values fields = .ok (fields.map fun e => (e.1, withTexts f e.2)) := by
  induction fields with
  | nil => rfl
  | cons e rest ih =>
    rw [resolveFields, h e (by simp), ih fun g hg => h g (List.mem_cons_of_mem _ hg)]
    rfl

/-- Resolving a value applies resolving to its texts. -/
theorem resolveValue_eq {values : Value} {f : String → String} {v : Value}
    (h : ∀ s ∈ v.texts, resolve s values = .ok (f s)) :
    resolveValue values v = .ok (v.withTexts f) := by
  induction v using by_parts with
  | scalar v hv =>
    cases v with
    | text s =>
      rw [resolveValue, h s (by simp [texts])]
      rfl
    | list items => cases hv
    | object fields => cases hv
    | _ => rfl
  | list items ih =>
    rw [texts_list] at h
    rw [resolveValue, withTexts_list, resolveItems_eq fun v hv =>
      ih v hv fun s hs => h s (List.mem_flatMap.mpr ⟨v, hv, hs⟩)]
    rfl
  | object fields ih =>
    rw [texts_object] at h
    rw [resolveValue, withTexts_object, resolveFields_eq fun e he =>
      ih e he fun s hs => h s (List.mem_flatMap.mpr ⟨e, he, hs⟩)]
    rfl

/-- Where no path in the texts of a value is refused and every value that is found can be printed,
the value is resolved. The outcome has the same
outline, and its texts are those of the value, each resolved. A path finds something in it where it
finds something in the value, and this is what it finds there, resolved; a path that is refused in
the one is refused in the other. -/
theorem resolving_a_value_keeps_its_outline (config values : Value)
    (h : ∀ s ∈ config.texts, ∀ g ∈ holes s.toList, g.path ≠ [] →
      (lookup values (String.ofList g.path)).isOk = true)
    (hprint : ∀ s ∈ config.texts, ∀ g ∈ holes s.toList, ∀ v ∈ g.value? values,
      v.isPrintable = true) :
    ∃ resolved, resolveValue values config = .ok resolved ∧
      resolved.outline = config.outline ∧
      List.Forall₂ (fun s r => resolve s values = .ok r) config.texts resolved.texts ∧
      ∀ path,
        (lookup resolved path = .ok none ↔ lookup config path = .ok none) ∧
        (∀ v, lookup config path = .ok (some v) →
          ∃ w, resolveValue values v = .ok w ∧ lookup resolved path = .ok (some w)) ∧
        ∀ e, lookup resolved path = .error e ↔ lookup config path = .error e := by
  have hfill : ∀ s ∈ config.texts, resolve s values = .ok (filledText values s) :=
    fun s hs => resolve_eq_filled (h s hs) (hprint s hs)
  refine ⟨_, resolveValue_eq hfill, outline_withTexts _ config, ?_, fun path => ?_⟩
  · rw [texts_withTexts, List.forall₂_map_right_iff]
    exact List.forall₂_same.mpr hfill
  · unfold lookup
    rw [walk_withTexts]
    cases hwalk : walk config (Text.splitAt '.' path) with
    | error e => simp [Except.map]
    | ok found =>
      cases found with
      | none => simp [Except.map]
      | some v =>
        have hv := resolveValue_eq fun s hs => hfill s (texts_of_walk hwalk s hs)
        simp [Except.map, hv]

/-- A name that looks like a placeholder is left alone, a text becomes JSON text without becoming a
list, and a text deep inside is resolved where it stands. -/
theorem a_nested_value_is_resolved_in_place :
    ∃ resolved,
      resolveValue (.object [("a", .list [.text "x", .int 2])])
        (.object [("\x7b\x7ba\x7d\x7d", .text "\x7b\x7ba\x7d\x7d"),
          ("rows", .list [.null, .object [("to", .text "$\x7ba.0\x7d!")]])]) = .ok resolved ∧
      lookup resolved "\x7b\x7ba\x7d\x7d" = .ok (some (.text "[\"x\",2]")) ∧
      lookup resolved "\x7b\x7ba\x7d\x7d.0" = .ok none ∧
      lookup resolved "rows.1.to" = .ok (some (.text "x!")) := by
  obtain ⟨resolved, hresolved, _, _, hpaths⟩ := resolving_a_value_keeps_its_outline
    (.object [("\x7b\x7ba\x7d\x7d", .text "\x7b\x7ba\x7d\x7d"),
      ("rows", .list [.null, .object [("to", .text "$\x7ba.0\x7d!")]])])
    (.object [("a", .list [.text "x", .int 2])]) (by decide) (by decide)
  obtain ⟨w, hw, hfirst⟩ := (hpaths "\x7b\x7ba\x7d\x7d").2.1 _ rfl
  obtain ⟨w', hw', hdeep⟩ := (hpaths "rows.1.to").2.1 _ rfl
  cases hw
  cases hw'
  exact ⟨resolved, hresolved, hfirst, (hpaths "\x7b\x7ba\x7d\x7d.0").1.mpr rfl, hdeep⟩

end Placeholder

end Flowscript
