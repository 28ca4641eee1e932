-- Paths through values. A name leads from an object to one of its fields and
-- from a list to one of its items; there are four reasons for which it leads
-- nowhere, and for none of them is a look-up refused. It is refused at one
-- kind of name only, a position in a list that has more digits than a whole
-- number may have, wherever in a list or behind its end the position lies.
import Flowscript.Proofs.Journal
import Flowscript.Proofs.Leftmost
import Flowscript.Proofs.Numerals

namespace Flowscript.Placeholder

/-! ## Where a name leads -/

/-- A name that a list takes for a position: decimal digits of any script. -/
def IsPosition (part : String) : Prop :=
  part ≠ "" ∧ ∀ c ∈ part.toList, Text.isDecimal c = true

/-- The position that digits spell. -/
def position (part : String) : Nat := Text.digitsValue part.toList

/-- A name leads from a value to the one below it. -/
inductive Enters : Value → String → Value → Prop
  | field {fields : Fields} {part : String} {below : Value} :
      Fields.get? fields part = some below → Enters (.object fields) part below
  | item {items : List Value} {part : String} {below : Value} :
      IsPosition part → items[position part]? = some below → Enters (.list items) part below

/-- A value has nothing under a name: no field has the name, it is no position, the list ends before
it, or there is nothing below the value at all. -/
inductive Lacks : Value → String → Prop
  | missing {fields : Fields} {part : String} :
      Fields.get? fields part = none → Lacks (.object fields) part
  | misnamed {items : List Value} {part : String} :
      ¬ IsPosition part → Lacks (.list items) part
  | beyond {items : List Value} {part : String} :
      IsPosition part → items.length ≤ position part → Lacks (.list items) part
  | leaf {v : Value} {part : String} :
      (∀ fields, v ≠ .object fields) → (∀ items, v ≠ .list items) → Lacks v part

/-- A position in a list has more digits than a whole number may have. -/
def Overlong (v : Value) (part : String) : Prop :=
  (∃ items, v = .list items) ∧ IsPosition part ∧ Numeral.maxDigits < part.toList.length

/-- Along a path, a value and a name at it are met that stand in a relation. -/
inductive Meets (P : Value → String → Prop) : Value → List String → Prop
  | here {v : Value} {part : String} {rest : List String} : P v part → Meets P v (part :: rest)
  | there {v w : Value} {part : String} {rest : List String} :
      Enters v part w → Meets P w rest → Meets P v (part :: rest)

theorem Enters.unique {v w w' : Value} {part : String} (h : Enters v part w)
    (h' : Enters v part w') : w = w' := by
  cases h with
  | field hget =>
    cases h' with
    | field hget' => exact Option.some.inj (hget.symm.trans hget')
  | item _ hget =>
    cases h' with
    | item _ hget' => exact Option.some.inj (hget.symm.trans hget')

theorem Lacks.not_enters {v w : Value} {part : String} (h : Lacks v part) :
    ¬ Enters v part w := by
  intro henter
  cases henter with
  | field hget =>
    cases h with
    | missing hnone => simp [hnone] at hget
    | leaf hobject _ => exact hobject _ rfl
  | item hposition hget =>
    cases h with
    | misnamed hother => exact hother hposition
    | beyond _ hlength => simp [List.getElem?_eq_none hlength] at hget
    | leaf _ hlist => exact hlist _ rfl

section

variable {P : Value → String → Prop} {v w : Value} {part : String} {rest : List String}

theorem not_meets_nil : ¬ Meets P v [] := by
  intro h
  cases h

theorem meets_of_enters (h : Enters v part w) :
    Meets P v (part :: rest) ↔ P v part ∨ Meets P w rest := by
  constructor
  · intro hmeets
    cases hmeets with
    | here hp => exact Or.inl hp
    | there h' hrest => exact Or.inr (h.unique h' ▸ hrest)
  · rintro (hp | hrest)
    · exact .here hp
    · exact .there h hrest

theorem meets_of_lacks (h : Lacks v part) : Meets P v (part :: rest) ↔ P v part := by
  constructor
  · intro hmeets
    cases hmeets with
    | here hp => exact hp
    | there h' _ => exact absurd h' h.not_enters
  · exact .here

end

/-! ## What a look-up does -/

theorem child_position {items : List Value} {part : String} (h : IsPosition part) :
    child (.list items) part =
      if Numeral.maxDigits < part.toList.length then .error (.tooLong part.toList.length)
      else .ok items[position part]? := by
  obtain ⟨hne, hdigits⟩ := h
  have hguard : (decide (part ≠ "") && part.toList.all Text.isDecimal) = true := by
    simpa [hne] using hdigits
  unfold child
  simp only [hguard, if_true, wholeOfText_digits hne hdigits]
  split <;> rfl

theorem child_misnamed {items : List Value} {part : String} (h : ¬ IsPosition part) :
    child (.list items) part = .ok none := by
  have hguard : (decide (part ≠ "") && part.toList.all Text.isDecimal) = false := by
    rw [Bool.eq_false_iff]
    intro htrue
    simp only [Bool.and_eq_true, decide_eq_true_eq, List.all_eq_true] at htrue
    exact h htrue
  unfold child
  simp only [hguard, Bool.false_eq_true, if_false]

/-- What one name can do: it leads to the value below, it leads nowhere, or it is refused for its
digits. -/
theorem child_spec (v : Value) (part : String) :
    (∃ w, child v part = .ok (some w) ∧ Enters v part w ∧ ¬ Overlong v part) ∨
    (child v part = .ok none ∧ Lacks v part ∧ ¬ Overlong v part) ∨
    ∃ n, child v part = .error (.tooLong n) ∧ Overlong v part := by
  cases v with
  | object fields =>
    have hshort : ¬ Overlong (.object fields) part := by
      rintro ⟨⟨items, hlist⟩, _⟩
      cases hlist
    cases hget : Fields.get? fields part with
    | some w => exact Or.inl ⟨w, by rw [child, hget], .field hget, hshort⟩
    | none => exact Or.inr (Or.inl ⟨by rw [child, hget], .missing hget, hshort⟩)
  | list items =>
    by_cases hposition : IsPosition part
    · rw [child_position hposition]
      by_cases hlong : Numeral.maxDigits < part.toList.length
      · exact Or.inr (Or.inr ⟨_, if_pos hlong, ⟨items, rfl⟩, hposition, hlong⟩)
      · have hshort : ¬ Overlong (.list items) part := fun h => hlong h.2.2
        rw [if_neg hlong]
        cases hget : items[position part]? with
        | some w => exact Or.inl ⟨w, rfl, .item hposition hget, hshort⟩
        | none =>
          exact Or.inr (Or.inl ⟨rfl, .beyond hposition (List.getElem?_eq_none_iff.mp hget), hshort⟩)
    · refine Or.inr (Or.inl ⟨child_misnamed hposition, .misnamed hposition, ?_⟩)
      exact fun h => hposition h.2.1
  | _ =>
    refine Or.inr (Or.inl ⟨rfl, .leaf (by simp) (by simp), ?_⟩)
    rintro ⟨⟨items, hlist⟩, _⟩
    cases hlist

/-- What a whole path can do, by the first of its names that does not lead on. -/
theorem walk_spec (v : Value) (parts : List String) :
    (∃ w, walk v parts = .ok (some w) ∧ ¬ Meets Lacks v parts ∧ ¬ Meets Overlong v parts) ∨
    (walk v parts = .ok none ∧ Meets Lacks v parts ∧ ¬ Meets Overlong v parts) ∨
    ∃ n, walk v parts = .error (.tooLong n) ∧ Meets Overlong v parts := by
  induction parts generalizing v with
  | nil => exact Or.inl ⟨v, rfl, not_meets_nil, not_meets_nil⟩
  | cons part rest ih =>
    rw [walk]
    rcases child_spec v part with ⟨w, hchild, henter, hshort⟩ | ⟨hchild, hlacks, hshort⟩ |
      ⟨n, hchild, hlong⟩
    · have hlacks : ¬ Lacks v part := fun h => h.not_enters henter
      rw [hchild, meets_of_enters henter, meets_of_enters henter]
      simp only [hlacks, hshort, false_or]
      exact ih w
    · rw [hchild, meets_of_lacks hlacks, meets_of_lacks hlacks]
      exact Or.inr (Or.inl ⟨rfl, hlacks, hshort⟩)
    · rw [hchild]
      exact Or.inr (Or.inr ⟨n, rfl, .here hlong⟩)

/-- The names of a dotted path. -/
def names (path : String) : List String := Text.splitAt '.' path

theorem isOk_lookup_iff {values : Value} {path : String} :
    (lookup values path).isOk = true ↔ ¬ Meets Overlong values (names path) := by
  unfold lookup names
  rcases walk_spec values (Text.splitAt '.' path) with ⟨w, hwalk, _, hshort⟩ | ⟨hwalk, _, hshort⟩ |
    ⟨n, hwalk, hlong⟩
  · simp [hwalk, hshort, Except.isOk, Except.toBool]
  · simp [hwalk, hshort, Except.isOk, Except.toBool]
  · simp [hwalk, hlong, Except.isOk, Except.toBool]

theorem lookup_eq_none_iff {values : Value} {path : String} :
    lookup values path = .ok none ↔
      Meets Lacks values (names path) ∧ ¬ Meets Overlong values (names path) := by
  unfold lookup names
  rcases walk_spec values (Text.splitAt '.' path) with ⟨w, hwalk, hon, hshort⟩ |
    ⟨hwalk, hlacks, hshort⟩ | ⟨n, hwalk, hlong⟩
  · simp [hwalk, hon]
  · simp [hwalk, hlacks, hshort]
  · simp [hwalk, hlong]

/-! ## Templates -/

theorem fillPiece_of_fillPieces {values : Value} {ps : List Piece} {out : List Char}
    (h : fillPieces values ps = .ok out) {p : Piece} (hp : p ∈ ps) :
    ∃ here, fillPiece values p = .ok here := by
  induction ps generalizing out with
  | nil => cases hp
  | cons q rest ih =>
    obtain ⟨here, hhere, h⟩ := except_bind_eq_ok.mp h
    obtain ⟨after, hafter, _⟩ := except_bind_eq_ok.mp h
    rcases List.mem_cons.mp hp with rfl | hp
    · exact ⟨here, hhere⟩
    · exact ih hafter hp

theorem isPrintable_of_write {v : Value} {s : String} (h : write v = .ok s) :
    v.isPrintable = true := by
  unfold write at h
  split at h
  · assumption
  · cases h

/-- A placeholder is filled where its path can be looked up and the value there can be printed. -/
theorem of_fillHole {values : Value} {g : Hole} {out : List Char}
    (h : fillHole values g = .ok out) :
    (lookup values (String.ofList g.path)).isOk = true ∧
      ∀ v ∈ g.value? values, v.isPrintable = true := by
  unfold fillHole at h
  unfold Hole.value?
  split at h
  · rename_i hempty
    rw [List.isEmpty_iff.mp hempty]
    exact ⟨isOk_lookup_nil values, by simp⟩
  · rename_i hpath
    obtain ⟨found, hfound, h⟩ := except_bind_eq_ok.mp h
    rw [if_neg hpath, hfound]
    refine ⟨rfl, ?_⟩
    rintro v rfl
    obtain ⟨s, hs, _⟩ := except_bind_eq_ok.mp h
    exact isPrintable_of_write hs

theorem of_resolve {values : Value} {t r : String} (h : resolve t values = .ok r) {g : Hole}
    (hg : g ∈ holes t.toList) :
    (lookup values (String.ofList g.path)).isOk = true ∧
      ∀ v ∈ g.value? values, v.isPrintable = true := by
  obtain ⟨out, hout, _⟩ := except_map_eq_ok.mp h
  obtain ⟨here, hhere⟩ := fillPiece_of_fillPieces hout (mem_holes.mp hg)
  exact of_fillHole hhere

/-- A template is resolved just where each of its paths can be looked up and the values there can be
printed. -/
theorem resolve_eq_ok {values : Value} {t r : String} :
    resolve t values = .ok r ↔
      (∀ g ∈ holes t.toList, (lookup values (String.ofList g.path)).isOk = true ∧
        ∀ v ∈ g.value? values, v.isPrintable = true) ∧
      String.ofList ((pieces t.toList).flatMap (Piece.filled values)) = r := by
  constructor
  · intro h
    refine ⟨fun g hg => of_resolve h hg, ?_⟩
    rw [resolve_eq_filled (fun g hg _ => (of_resolve h hg).1)
      (fun g hg => (of_resolve h hg).2)] at h
    exact Except.ok.inj h
  · rintro ⟨h, rfl⟩
    exact resolve_eq_filled (fun g hg _ => (h g hg).1) (fun g hg => (h g hg).2)

theorem filled_of_lacks {values : Value} {g : Hole}
    (hshort : ¬ Meets Overlong values (names (String.ofList g.path)))
    (h : Meets Lacks values (names (String.ofList g.path))) :
    Piece.filled values (.hole g) = g.written := by
  apply Piece.filled_of_value?
  unfold Hole.value?
  rw [lookup_eq_none_iff.mpr ⟨h, hshort⟩]
  simp

/-- A look-up is refused only where its path meets a position in too many digits, and otherwise finds
nothing exactly where a name leads nowhere. A template is resolved unless one of its placeholders has
such a path, or leads to a value that cannot be printed because a whole number in it has as many
digits, and a placeholder whose path leads nowhere is then left as it stands. -/
theorem resolving_fails_only_at_numbers_in_too_many_digits (values : Value) :
    (∀ path, (lookup values path).isOk = true ↔ ¬ Meets Overlong values (names path)) ∧
    (∀ path, lookup values path = .ok none ↔
      Meets Lacks values (names path) ∧ ¬ Meets Overlong values (names path)) ∧
    ∀ t, ((∃ r, resolve t values = .ok r) ↔
        ∀ h ∈ holes t.toList, ¬ Meets Overlong values (names (String.ofList h.path)) ∧
          ∀ v ∈ h.value? values, v.isPrintable = true) ∧
      ∀ r, resolve t values = .ok r →
        r = String.ofList ((pieces t.toList).flatMap (Piece.filled values)) ∧
        ∀ h ∈ holes t.toList, Meets Lacks values (names (String.ofList h.path)) →
          Piece.filled values (.hole h) = h.written := by
  refine ⟨fun path => isOk_lookup_iff, fun path => lookup_eq_none_iff, fun t => ⟨?_, ?_⟩⟩
  · simp only [resolve_eq_ok, isOk_lookup_iff, exists_and_left, exists_eq', and_true]
  · intro r hr
    obtain ⟨hok, rfl⟩ := resolve_eq_ok.mp hr
    exact ⟨rfl, fun h hh => filled_of_lacks (isOk_lookup_iff.mp (hok h hh).1)⟩

/-- Positions behind the end in digits of two scripts, a digit that is not decimal, a name below a
number and a missing field are left alone, and a position with a zero in front is found. -/
theorem placeholders_that_lead_nowhere_are_left :
    resolve "\x7b\x7ba.5\x7d\x7d\x7b\x7ba.²\x7d\x7d\x7b\x7ba.0.x\x7d\x7d$\x7bb\x7d\x7b\x7ba.٣\x7d\x7d\x7b\x7ba.01\x7d\x7d"
        (.object [("a", .list [.int 1, .text "x"])]) =
      .ok "\x7b\x7ba.5\x7d\x7d\x7b\x7ba.²\x7d\x7d\x7b\x7ba.0.x\x7d\x7d$\x7bb\x7d\x7b\x7ba.٣\x7d\x7dx" ∧
    Meets Lacks (.object [("a", .list [.int 1, .text "x"])]) (names "a.0.x") := by
  have hlaw := resolving_fails_only_at_numbers_in_too_many_digits
    (.object [("a", .list [.int 1, .text "x"])])
  refine ⟨?_, ((hlaw.2.1 "a.0.x").mp rfl).1⟩
  obtain ⟨r, hr⟩ := (hlaw.2.2
    "\x7b\x7ba.5\x7d\x7d\x7b\x7ba.²\x7d\x7d\x7b\x7ba.0.x\x7d\x7d$\x7bb\x7d\x7b\x7ba.٣\x7d\x7d\x7b\x7ba.01\x7d\x7d").1.mpr
      fun h hh => ⟨(hlaw.1 _).mp (by revert h; decide), by revert h; decide⟩
  rw [hr, ((hlaw.2.2 _).2 r hr).1]
  decide

/-! ## A position in too many digits -/

section

variable {digits : List Char} (hdigits : ∀ c ∈ digits, Text.isDecimal c = true)
include hdigits

theorem names_digits : names (String.ofList ('a' :: '.' :: digits)) = ["a", String.ofList digits] := by
  have hdot : '.' ∉ digits := fun hmem => absurd (hdigits '.' hmem) (by decide)
  unfold names Text.splitAt
  rw [String.toList_ofList]
  rw [show 'a' :: '.' :: digits = ['a'] ++ '.' :: digits from rfl,
    Text.cutAt_append_sep (by decide), Text.cutAt_of_notMem hdot]
  rfl

theorem path_digits (style : Style) :
    Hole.path ⟨style, 'a' :: '.' :: digits⟩ = 'a' :: '.' :: digits := by
  apply Text.stripChars_of_forall
  intro c hc
  simp only [List.mem_cons] at hc
  rcases hc with rfl | rfl | hc
  · decide
  · decide
  · exact Text.isBlank_of_isDecimal (hdigits c hc)

theorem isPosition_digits (hlong : Numeral.maxDigits < digits.length) :
    IsPosition (String.ofList digits) := by
  refine ⟨fun hempty => ?_, by rwa [String.toList_ofList]⟩
  have hnil : digits = [] := by simpa using hempty
  rw [hnil] at hlong
  cases hlong

theorem lookup_overlong (hlong : Numeral.maxDigits < digits.length) :
    lookup (.object [("a", .list [])]) (String.ofList ('a' :: '.' :: digits)) =
      .error (.tooLong digits.length) := by
  have hchild : child (.list []) (String.ofList digits) = .error (.tooLong digits.length) := by
    rw [child_position (isPosition_digits hdigits hlong), String.toList_ofList, if_pos hlong]
  show walk _ (names _) = _
  rw [names_digits hdigits, walk]
  show walk (.list []) [String.ofList digits] = _
  rw [walk, hchild]
  rfl

theorem resolve_overlong (hlong : Numeral.maxDigits < digits.length) :
    resolve (String.ofList (Hole.written ⟨.braces, 'a' :: '.' :: digits⟩))
      (.object [("a", .list [])]) = .error (.tooLong digits.length) := by
  have hsound : Hole.Sound ⟨.braces, 'a' :: '.' :: digits⟩ := by
    refine ⟨by simp, fun c hc => ?_⟩
    simp only [List.mem_cons] at hc
    rcases hc with rfl | rfl | hc
    · rfl
    · rfl
    · simp [isBrace, Text.ne_of_isDecimal (hdigits c hc) (by decide : Text.isDecimal '\x7b' = false),
        Text.ne_of_isDecimal (hdigits c hc) (by decide : Text.isDecimal '\x7d' = false)]
  have hpieces := pieces_hole hsound []
  rw [List.append_nil] at hpieces
  unfold resolve
  rw [String.toList_ofList, hpieces]
  simp only [fillPieces, fillPiece, fillHole, path_digits hdigits, lookup_overlong hdigits hlong,
    List.isEmpty_cons, Bool.false_eq_true, if_false]
  rfl

end

/-- A position behind the end of a list leads nowhere, but in more digits than a number may have it
stops resolving, and the placeholder is not left as it stands. -/
theorem a_position_in_too_many_digits_stops_resolving :
    Meets Lacks (.object [("a", .list [])])
      ["a", String.ofList (List.replicate 4301 '9')] ∧
    resolve (String.ofList (['\x7b', '\x7b'] ++ 'a' :: '.' :: List.replicate 4301 '9' ++
      ['\x7d', '\x7d'])) (.object [("a", .list [])]) = .error (.tooLong 4301) := by
  have hdigits : ∀ c ∈ List.replicate 4301 '9', Text.isDecimal c = true := by
    intro c hc
    rw [List.eq_of_mem_replicate hc]
    decide
  have hlong : Numeral.maxDigits < (List.replicate 4301 '9').length := by
    rw [List.length_replicate]
    decide
  have hresolve := resolve_overlong hdigits hlong
  rw [List.length_replicate] at hresolve
  refine ⟨.there (.field rfl) (.here (.beyond ?_ (Nat.zero_le _))), hresolve⟩
  exact isPosition_digits hdigits hlong

end Flowscript.Placeholder
