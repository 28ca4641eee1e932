-- Where compiling fails. The main file is not written where the function of a
-- node cannot be, and the fault is that of the first such node in the order
-- of the graph. A plan fails only at a cycle, because no placeholder can name
-- a position in a list, and behind it nodes of unknown kinds let nothing fail
-- but a description that cannot be printed.
import Flowscript.Proofs.Blame
import Flowscript.Proofs.Closure
import Flowscript.Proofs.Cycles
import Flowscript.Proofs.Nested
import Flowscript.Proofs.Triggers

namespace Flowscript

/-! ## Work on lists -/

namespace Placeholder

/-- A value that can be printed and in which no path leads to a list. -/
inductive Listless : Value → Prop where
  | leaf {v : Value} (hobject : ∀ fields, v ≠ .object fields) (hlist : ∀ items, v ≠ .list items)
      (hprint : v.isPrintable = true) : Listless v
  | object {fields : Fields} (h : ∀ e ∈ fields, Listless e.2) : Listless (.object fields)

theorem Listless.not_meets {v : Value} (h : Listless v) (parts : List String) :
    ¬ Meets Overlong v parts := by
  intro hmeets
  induction hmeets with
  | here hlong =>
    obtain ⟨⟨items, rfl⟩, _⟩ := hlong
    cases h with
    | leaf _ hlist _ => exact hlist items rfl
  | there henter _ ih =>
    cases henter with
    | field hget =>
      cases h with
      | leaf hobject _ _ => exact hobject _ rfl
      | object hfields =>
        obtain ⟨front, back, hsplit, _⟩ := List.lookup_eq_some_iff.mp hget
        exact ih (hfields (_, _) (by rw [hsplit]; exact List.mem_append_cons_self))
    | item _ _ =>
      cases h with
      | leaf _ hlist _ => exact hlist _ rfl

theorem Listless.isPrintable {v : Value} (h : Listless v) : v.isPrintable = true := by
  induction h with
  | leaf _ _ hprint => exact hprint
  | object _ ih => exact Value.isPrintable_object.mpr ih

theorem isPrintable_of_enters {v w : Value} {part : String} (h : Enters v part w)
    (hv : v.isPrintable = true) : w.isPrintable = true := by
  cases h with
  | field hget => exact Value.isPrintable_object.mp hv _ (Fields.mem_of_get? hget)
  | item _ hget => exact Value.isPrintable_list.mp hv _ (List.mem_of_getElem? hget)

/-- What a path finds in a value can be printed if the value can. -/
theorem isPrintable_of_walk {v w : Value} {parts : List String} (hv : v.isPrintable = true)
    (h : walk v parts = .ok (some w)) : w.isPrintable = true := by
  induction parts generalizing v with
  | nil =>
    cases h
    exact hv
  | cons part rest ih =>
    rw [walk] at h
    rcases child_spec v part with ⟨below, hchild, henter, _⟩ | ⟨hchild, _⟩ | ⟨n, hchild, _⟩
    · rw [hchild] at h
      exact ih (isPrintable_of_enters henter hv) h
    · rw [hchild] at h
      cases h
    · rw [hchild] at h
      cases h

theorem isPrintable_of_value? {values v : Value} {g : Hole} (hvalues : values.isPrintable = true)
    (h : g.value? values = some v) : v.isPrintable = true := by
  unfold Hole.value? at h
  split at h
  · cases h
  · split at h
    · rename_i found hfound
      subst h
      exact isPrintable_of_walk hvalues hfound
    · cases h

/-- From a value without lists every text can be resolved, and so can every value. -/
theorem Listless.resolveFields_eq {values : Value} (h : Listless values) (fields : Fields) :
    resolveFields values fields =
      .ok (fields.map fun e => (e.1, e.2.withTexts (filledText values))) := by
  have hfill : ∀ s, resolve s values = .ok (filledText values s) :=
    fun s => resolve_eq_filled (fun g _ _ => isOk_lookup_iff.mpr (h.not_meets _))
      fun g _ v hv => isPrintable_of_value? h.isPrintable hv
  exact Placeholder.resolveFields_eq fun e _ => resolveValue_eq fun s _ => hfill s

end Placeholder

namespace Plan

end Plan

/-! ## Nodes of unknown kinds -/

section

variable {n : PlannedNode} (h : n.kind? = none) (c : Choices)
include h

end

section

variable {p : Plan} (hunknown : ∀ n ∈ p.nodes, n.kind? = none)
include hunknown

end

end Flowscript
