-- Outcomes of work that leaves notes. What a piece of work gives depends on
-- its parts only through their outcomes.
import Flowscript.Journal
import Mathlib.Data.List.Forall2

namespace Flowscript

variable {α β : Type}

theorem except_bind_eq_ok {ε : Type} {x : Except ε α} {f : α → Except ε β} {b : β} :
    (x >>= f) = .ok b ↔ ∃ a, x = .ok a ∧ f a = .ok b := by
  cases x with
  | ok a => simp [bind, Except.bind]
  | error e => simp [bind, Except.bind]

/-- Work in two parts fails where the first part fails, or the second after the first. -/
theorem except_bind_eq_error {ε : Type} {x : Except ε α} {f : α → Except ε β} {e : ε} :
    (x >>= f) = .error e ↔ x = .error e ∨ ∃ a, x = .ok a ∧ f a = .error e := by
  cases x with
  | ok a => simp [bind, Except.bind]
  | error e => simp [bind, Except.bind]

theorem except_mapError_eq_ok {ε ε' : Type} {x : Except ε α} {g : ε → ε'} {a : α} :
    x.mapError g = .ok a ↔ x = .ok a := by
  cases x with
  | ok b => simp [Except.mapError]
  | error e => simp [Except.mapError]

theorem except_map_eq_ok {ε : Type} {x : Except ε α} {f : α → β} {b : β} :
    x.map f = .ok b ↔ ∃ a, x = .ok a ∧ f a = b := by
  cases x with
  | ok a => simp [Except.map]
  | error e => simp [Except.map]

/-- Two related lists, split at an item of the first. -/
theorem forall₂_split {R : α → β → Prop} {xs : List α} {ys : List β}
    (h : List.Forall₂ R xs ys) {x : α} (hx : x ∈ xs) :
    ∃ front back y front' back', xs = front ++ x :: back ∧ ys = front' ++ y :: back' ∧
      List.Forall₂ R front front' ∧ R x y := by
  induction h with
  | nil => cases hx
  | @cons a b rest rest' hab _ ih =>
    rcases List.mem_cons.mp hx with rfl | hx
    · exact ⟨[], rest, b, [], rest', rfl, rfl, .nil, hab⟩
    · obtain ⟨front, back, y, front', back', rfl, rfl, hfront, hy⟩ := ih hx
      exact ⟨a :: front, back, y, b :: front', back', rfl, rfl, .cons hab hfront, hy⟩

theorem exists_of_forall₂ {R : α → β → Prop} {as : List α} {bs : List β}
    (h : List.Forall₂ R as bs) {a : α} (ha : a ∈ as) : ∃ b ∈ bs, R a b := by
  obtain ⟨_, _, b, _, _, _, rfl, _, hb⟩ := forall₂_split h ha
  exact ⟨b, by simp, hb⟩

namespace Traced

@[simp]
theorem outcome_pure (a : α) : (pure a : Traced α).outcome = .ok a := rfl

theorem outcome_bind (x : Traced α) (f : α → Traced β) :
    (x >>= f).outcome = x.outcome.bind fun a => (f a).outcome := by
  show (andThen x f).outcome = _
  unfold andThen
  cases x.outcome <;> rfl

@[simp]
theorem outcome_note_bind (level : Level) (text : String) (f : Unit → Traced β) :
    (note level text >>= f).outcome = (f ()).outcome := rfl

theorem bind_eq_ok {x : Traced α} {f : α → Traced β} {b : β} :
    (x >>= f).outcome = .ok b ↔ ∃ a, x.outcome = .ok a ∧ (f a).outcome = .ok b := by
  rw [outcome_bind]
  exact except_bind_eq_ok

theorem bind_eq_error {x : Traced α} {f : α → Traced β} {e : Fault} :
    (x >>= f).outcome = .error e ↔
      x.outcome = .error e ∨ ∃ a, x.outcome = .ok a ∧ (f a).outcome = .error e := by
  rw [outcome_bind]
  exact except_bind_eq_error

/-- Leaving a note for each item never fails. -/
theorem outcome_forEach_note (level : Level) (text : α → String)
    (items : List α) :
    (forEach (fun a => note level (text a)) items).outcome = .ok (items.map fun _ => ()) := by
  induction items with
  | nil => rfl
  | cons a rest ih =>
    unfold forEach
    rw [outcome_note_bind, outcome_bind, ih]
    rfl

/-- Work on a list that succeeds has succeeded on every item. -/
theorem forEach_eq_ok {f : α → Traced β} {items : List α} {results : List β}
    (h : (forEach f items).outcome = .ok results) :
    List.Forall₂ (fun a b => (f a).outcome = .ok b) items results := by
  induction items generalizing results with
  | nil =>
    cases h
    exact List.Forall₂.nil
  | cons a rest ih =>
    obtain ⟨b, hb, h⟩ := bind_eq_ok.mp h
    obtain ⟨bs, hbs, h⟩ := bind_eq_ok.mp h
    cases h
    exact List.Forall₂.cons hb (ih hbs)

theorem mem_forEach {f : α → Traced β} {items : List α} {results : List β}
    (h : (forEach f items).outcome = .ok results) {b : β} (hb : b ∈ results) :
    ∃ a ∈ items, (f a).outcome = .ok b :=
  exists_of_forall₂ (List.Forall₂.flip (forEach_eq_ok h)) hb

theorem exists_of_forEach {f : α → Traced β} {items : List α} {results : List β}
    (h : (forEach f items).outcome = .ok results) {a : α} (ha : a ∈ items) :
    ∃ b ∈ results, (f a).outcome = .ok b :=
  exists_of_forall₂ (forEach_eq_ok h) ha

end Traced

end Flowscript
