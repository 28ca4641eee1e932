-- The properties that a configuration names. A place inside a value is given
-- by positions, from the outside in, so that places are compared as a reader
-- meets them. Scanning a value gives the name at each place where a field
-- names a property, place by place, and nothing else.
import Flowscript.Proofs.Credentials
import Flowscript.Proofs.Nested

namespace Flowscript

/-! ## Content -/

namespace Text

/-- What is left of a text without the blanks at its two ends, where it is not blank. -/
structure HasContent (s content : String) : Prop where
  within : ∃ before after, s.toList = before ++ content.toList ++ after ∧
    (∀ c ∈ before, isBlank c = true) ∧ ∀ c ∈ after, isBlank c = true
  starts : ∃ c ∈ content.toList.head?, isBlank c = false
  ends : ∃ c ∈ content.toList.getLast?, isBlank c = false

theorem dropWhile_append_of_head {p : Char → Bool} {before cs : List Char}
    (hbefore : ∀ c ∈ before, p c = true) (hcs : ∃ c ∈ cs.head?, p c = false) :
    (before ++ cs).dropWhile p = cs := by
  obtain ⟨c, hc, hp⟩ := hcs
  obtain ⟨rest, rfl⟩ := List.head?_eq_some_iff.mp hc
  rw [List.dropWhile_append_of_pos hbefore, List.dropWhile_cons_of_neg (by simp [hp])]

/-- What dropping leaves, if it leaves anything, starts with a character that is kept. -/
theorem head?_dropWhile {p : Char → Bool} {cs : List Char} (h : cs.dropWhile p ≠ []) :
    ∃ c ∈ (cs.dropWhile p).head?, p c = false := by
  refine ⟨(cs.dropWhile p).head h, List.head?_eq_some_head h, ?_⟩
  simpa using List.head_dropWhile_not p h

theorem HasContent.trim_eq {s content : String} (h : HasContent s content) : trim s = content := by
  obtain ⟨⟨before, after, hs, hbefore, hafter⟩, ⟨c, hc, hblank⟩, hends⟩ := h
  have hhead : ∃ c ∈ (content.toList ++ after).head?, isBlank c = false :=
    ⟨c, by simp [List.head?_append, Option.mem_def.mp hc], hblank⟩
  unfold trim stripChars dropEndWhile
  rw [hs, List.append_assoc, dropWhile_append_of_head hbefore hhead, List.reverse_append,
    dropWhile_append_of_head (by simpa using hafter) (by simpa using hends), List.reverse_reverse,
    String.ofList_toList]

theorem hasContent_trim {s : String} (h : trim s ≠ "") : HasContent s (trim s) := by
  let rest := s.toList.dropWhile isBlank
  let kept := rest.reverse.dropWhile isBlank
  have htrim : (trim s).toList = kept.reverse := String.toList_ofList
  have hkept : kept ≠ [] := fun hnil => h (String.toList_injective (by rw [htrim, hnil]; rfl))
  have hrest : rest = kept.reverse ++ (rest.reverse.takeWhile isBlank).reverse := by
    rw [← List.reverse_append, List.takeWhile_append_dropWhile, List.reverse_reverse]
  have hne : rest ≠ [] := fun hnil => hkept (by simp [kept, hnil])
  refine ⟨⟨s.toList.takeWhile isBlank, (rest.reverse.takeWhile isBlank).reverse, ?_, ?_, ?_⟩,
    ?_, ?_⟩
  · rw [htrim, List.append_assoc, ← hrest, List.takeWhile_append_dropWhile]
  · exact fun c hc => List.mem_takeWhile_imp hc
  · exact fun c hc => List.mem_takeWhile_imp (List.mem_reverse.mp hc)
  · have hhead : ∃ c ∈ rest.head?, isBlank c = false := head?_dropWhile hne
    rwa [hrest, List.head?_append_of_ne_nil _ (by simpa using hkept), ← htrim] at hhead
  · rw [htrim, List.getLast?_reverse]
    exact head?_dropWhile hkept

theorem HasContent.ne_empty {s content : String} (h : HasContent s content) : content ≠ "" := by
  rintro rfl
  simpa using h.starts

end Text

/-! ## Places -/

namespace Value

/-- The parts of a list or an object in their order, those of an object with their keys. -/
def parts : Value → List (Option String × Value)
  | .list items => items.map fun v => (none, v)
  | .object fields => fields.map fun e => (some e.1, e.2)
  | _ => []

/-- A law of values holds if it holds of every value whose parts obey it. -/
theorem by_all_parts {P : Value → Prop} (whole : ∀ v : Value, (∀ part ∈ v.parts, P part.2) → P v)
    (v : Value) : P v := by
  induction v using by_parts with
  | scalar v hv =>
    refine whole v ?_
    cases v with
    | list items => cases hv
    | object fields => cases hv
    | _ => exact fun part hpart => absurd hpart List.not_mem_nil
  | list items ih => exact whole _ (List.forall_mem_map.mpr ih)
  | object fields ih => exact whole _ (List.forall_mem_map.mpr ih)

/-- At a place inside the value there is a field with this key and this value. A place has the
position of a part, then the position of a part of that part, and so on. -/
inductive FieldAt : Value → List Nat → String → Value → Prop where
  | own {v w : Value} {i : Nat} {key : String} (h : v.parts[i]? = some (some key, w)) :
      FieldAt v [i] key w
  | within {v w : Value} {i : Nat} {part : Option String × Value} {place : List Nat} {key : String}
      (h : v.parts[i]? = some part) (hin : FieldAt part.2 place key w) :
      FieldAt v (i :: place) key w

/-- At a place inside the value there is a field that names the property. -/
def NamesAt (v : Value) (place : List Nat) (name : String) : Prop :=
  ∃ key s, v.FieldAt place key (.text s) ∧ key ∈ Secret.fieldNames ∧ Text.HasContent s name

end Value

/-! ## Names by places -/

/-- The names are those that stand at places, one for each place, in the order of the places. -/
def ListedByPlace (R : List Nat → String → Prop) (names : List String) : Prop :=
  ∃ found : List (List Nat × String), names = found.map Prod.snd ∧
    (found.map Prod.fst).Pairwise (List.Lex (· < ·)) ∧
    ∀ place name, (place, name) ∈ found ↔ R place name

theorem ListedByPlace.congr {R S : List Nat → String → Prop} {names : List String}
    (h : ListedByPlace R names) (hiff : ∀ place name, S place name ↔ R place name) :
    ListedByPlace S names := by
  obtain ⟨found, hnames, horder, hmem⟩ := h
  exact ⟨found, hnames, horder, fun place name => (hmem place name).trans (hiff place name).symm⟩

theorem listedByPlace_singleton (name : String) :
    ListedByPlace (fun place n => place = [] ∧ n = name) [name] :=
  ⟨[([], name)], rfl, List.pairwise_singleton .., by simp⟩

/-- What is listed for the members of a list, member by member, is listed for the list, where the
position of the member comes first. Positions are counted from `k`, so that the members behind the
first one are a list of their own. -/
theorem listedByPlace_flatMap {α : Type} {R : α → List Nat → String → Prop} {f : α → List String}
    {xs : List α} (h : ∀ x ∈ xs, ListedByPlace (R x) (f x)) (k : Nat) :
    ListedByPlace (fun place name => ∃ i x rest, place = (k + i) :: rest ∧ xs[i]? = some x ∧
      R x rest name) (xs.flatMap f) := by
  induction xs generalizing k with
  | nil => exact ⟨[], rfl, List.Pairwise.nil, by simp⟩
  | cons x xs ih =>
    rw [List.forall_mem_cons] at h
    obtain ⟨first, hfirst, hfirstOrder, hfirstMem⟩ := h.1
    obtain ⟨others, hothers, hothersOrder, hothersMem⟩ := ih h.2 (k + 1)
    refine ⟨first.map (fun e => (k :: e.1, e.2)) ++ others, ?_, ?_, fun place name => ?_⟩
    · rw [List.flatMap_cons, hfirst, hothers, List.map_append, List.map_map]
      rfl
    · rw [List.map_append, List.map_map, List.pairwise_append]
      refine ⟨?_, hothersOrder, ?_⟩
      · rw [List.pairwise_map] at hfirstOrder ⊢
        exact hfirstOrder.imp fun hlt => .cons hlt
      · intro place hplace later hlater
        obtain ⟨e, _, rfl⟩ := List.mem_map.mp hplace
        obtain ⟨e', he', rfl⟩ := List.mem_map.mp hlater
        obtain ⟨i, _, rest, hrest, _⟩ := (hothersMem e'.1 e'.2).mp he'
        rw [hrest]
        exact .rel (by omega)
    · rw [List.mem_append, hothersMem]
      constructor
      · rintro (hmem | ⟨i, y, rest, rfl, hy, hR⟩)
        · obtain ⟨e, he, heq⟩ := List.mem_map.mp hmem
          cases heq
          exact ⟨0, x, e.1, rfl, rfl, (hfirstMem _ _).mp he⟩
        · exact ⟨i + 1, y, rest, by rw [Nat.add_right_comm, Nat.add_assoc], hy, hR⟩
      · rintro ⟨i, y, rest, rfl, hy, hR⟩
        cases i with
        | zero =>
          cases hy
          exact Or.inl (List.mem_map.mpr ⟨(rest, name), (hfirstMem _ _).mpr hR, rfl⟩)
        | succ i => exact Or.inr ⟨i, y, rest, by rw [Nat.add_right_comm, Nat.add_assoc], hy, hR⟩

/-! ## Scanning -/

namespace Secret

theorem named?_eq_some_iff {key name : String} {v : Value} :
    named? key v = some name ↔ key ∈ fieldNames ∧ ∃ s, v = .text s ∧ Text.HasContent s name := by
  constructor
  · intro h
    obtain ⟨s, rfl, hkey, hs, rfl⟩ := text_of_named? h
    exact ⟨hkey, s, rfl, Text.hasContent_trim hs⟩
  · rintro ⟨hkey, s, rfl, hs⟩
    simp [named?, hkey, hs.trim_eq, hs.ne_empty]

/-- What scanning finds in a part: the name that the part itself gives, or else what is inside
it. -/
def scanPart (part : Option String × Value) : List String :=
  match part.1.bind fun key => named? key part.2 with
  | some name => [name]
  | none => scan part.2

theorem scan_eq (v : Value) : scan v = v.parts.flatMap scanPart := by
  cases v with
  | list items =>
    rw [scan, Value.parts]
    induction items with
    | nil => rfl
    | cons v rest ih => rw [scanItems, ih, List.map_cons, List.flatMap_cons]; rfl
  | object fields =>
    rw [scan, Value.parts]
    induction fields with
    | nil => rfl
    | cons e rest ih => rw [scanFields, ih, List.map_cons, List.flatMap_cons]; rfl
  | _ => rfl

theorem scan_eq_nil_of_named? {key name : String} {v : Value} (h : named? key v = some name) :
    scan v = [] := by
  obtain ⟨s, rfl, _⟩ := text_of_named? h
  rfl

/-- What is below a part is found, whether the part has a key or not and whatever the key is. -/
theorem scan_sublist {v : Value} {part : Option String × Value} (h : part ∈ v.parts) :
    (scan part.2).Sublist (scan v) := by
  have hpart : (scan part.2).Sublist (scanPart part) := by
    unfold scanPart
    split
    · rename_i name hname
      obtain ⟨key, _, hnamed⟩ := Option.bind_eq_some_iff.mp hname
      rw [scan_eq_nil_of_named? hnamed]
      exact List.nil_sublist _
    · exact List.Sublist.refl _
  rw [scan_eq v, List.flatMap_def]
  exact hpart.trans (List.sublist_flatten_of_mem (List.mem_map_of_mem h))

/-- At a place below a part, or at the part itself, a property is named. -/
def PartNames (part : Option String × Value) (place : List Nat) (name : String) : Prop :=
  (place = [] ∧ (part.1.bind fun key => named? key part.2) = some name) ∨ part.2.NamesAt place name

theorem namesAt_iff {v : Value} {place : List Nat} {name : String} :
    v.NamesAt place name ↔ ∃ i part rest, place = i :: rest ∧ v.parts[i]? = some part ∧
      PartNames part rest name := by
  constructor
  · rintro ⟨key, s, hfield, hkey, hs⟩
    cases hfield with
    | @own _ _ i _ h =>
      refine ⟨i, _, [], rfl, h, Or.inl ⟨rfl, ?_⟩⟩
      exact named?_eq_some_iff.mpr ⟨hkey, s, rfl, hs⟩
    | @within _ _ i part rest _ h hin =>
      exact ⟨i, part, rest, rfl, h, Or.inr ⟨key, s, hin, hkey, hs⟩⟩
  · rintro ⟨i, part, rest, rfl, hpart, ⟨rfl, hname⟩ | ⟨key, s, hin, hkey, hs⟩⟩
    · obtain ⟨key, hkey, hnamed⟩ := Option.bind_eq_some_iff.mp hname
      obtain ⟨hmem, s, hvalue, hs⟩ := named?_eq_some_iff.mp hnamed
      refine ⟨key, s, .own ?_, hmem, hs⟩
      rw [hpart, ← hkey, ← hvalue]
    · exact ⟨key, s, .within hpart hin, hkey, hs⟩

theorem listedByPlace_scanPart {part : Option String × Value}
    (h : ListedByPlace part.2.NamesAt (scan part.2)) :
    ListedByPlace (PartNames part) (scanPart part) := by
  unfold scanPart PartNames
  split
  · rename_i name hname
    rw [hname]
    obtain ⟨key, _, hnamed⟩ := Option.bind_eq_some_iff.mp hname
    obtain ⟨s, hvalue, _⟩ := text_of_named? hnamed
    refine (listedByPlace_singleton name).congr fun place n => ?_
    have hnone : ¬ part.2.NamesAt place n := by
      rw [namesAt_iff, hvalue]
      simp [Value.parts]
    simp [hnone, eq_comm]
  · rename_i hname
    simp only [hname]
    exact h.congr (by simp)

theorem listedByPlace_scan (v : Value) : ListedByPlace v.NamesAt (scan v) := by
  induction v using Value.by_all_parts with
  | whole v ih =>
    rw [scan_eq]
    have hparts := listedByPlace_flatMap
      (fun part hpart => listedByPlace_scanPart (ih part hpart)) 0
    exact hparts.congr fun place name => by simp only [namesAt_iff, Nat.zero_add]

end Secret

/-! ## The law -/

/-- Scanning a value gives the names of the properties that fields at any depth name, one for each
such field and in the order of their places. Below a part it finds what it finds in the part alone,
whatever key the part has. -/
theorem scanning_lists_the_named_properties_by_place (v : Value) :
    (∃ found : List (List Nat × String), Secret.scan v = found.map Prod.snd ∧
      (found.map Prod.fst).Pairwise (List.Lex (· < ·)) ∧
      ∀ place name, (place, name) ∈ found ↔ v.NamesAt place name) ∧
    ∀ part ∈ v.parts, (Secret.scan part.2).Sublist (Secret.scan v) :=
  ⟨Secret.listedByPlace_scan v, fun _ => Secret.scan_sublist⟩

/-- A name with blanks around it, in a list below a field that is for a name itself. -/
theorem scanning_lists_what_is_below_a_secret_field :
    Value.NamesAt (.object [("tokenProperty", .list [.object [("secretProperty", .text " B ")]])])
      [0, 0, 0] "B" ∧
    "B" ∈ Secret.scan
      (.object [("tokenProperty", .list [.object [("secretProperty", .text " B ")]])]) ∧
    (Secret.scan (.list [.object [("secretProperty", .text " B ")]])).Sublist (Secret.scan
      (.object [("tokenProperty", .list [.object [("secretProperty", .text " B ")]])])) := by
  have hblank : ∀ c ∈ [' '], Text.isBlank c = true := List.forall_mem_singleton.mpr rfl
  have hcontent : Text.HasContent " B " "B" :=
    ⟨⟨[' '], [' '], rfl, hblank, hblank⟩, ⟨'B', rfl, rfl⟩, ⟨'B', rfl, rfl⟩⟩
  have hnames : Value.NamesAt
      (.object [("tokenProperty", .list [.object [("secretProperty", .text " B ")]])])
      [0, 0, 0] "B" :=
    ⟨"secretProperty", " B ", .within rfl (.within rfl (.own rfl)), by decide, hcontent⟩
  obtain ⟨⟨found, hscan, _, hfound⟩, hparts⟩ := scanning_lists_the_named_properties_by_place
    (.object [("tokenProperty", .list [.object [("secretProperty", .text " B ")]])])
  refine ⟨hnames, ?_, hparts _ (List.mem_singleton_self _)⟩
  rw [hscan]
  exact List.mem_map_of_mem ((hfound [0, 0, 0] "B").mpr hnames)

end Flowscript
