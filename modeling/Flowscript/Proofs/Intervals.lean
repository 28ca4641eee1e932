-- The allowed interval that is nearest to a wanted one. Of two that are as
-- near the smaller counts, so there is exactly one, in whatever order the
-- allowed intervals are written down, and it never falls when the wanted
-- interval grows.
import Flowscript.Trigger.Interval

namespace Flowscript.Interval

/-! ## The nearest interval -/

/-- No allowed interval is nearer to the wanted one, and none that is as near is smaller. -/
structure Nearest (wanted : Int) (allowed : List Int) (a : Int) : Prop where
  mem : a ∈ allowed
  closest : ∀ b ∈ allowed, (a - wanted).natAbs ≤ (b - wanted).natAbs
  least : ∀ b ∈ allowed, (b - wanted).natAbs = (a - wanted).natAbs → a ≤ b

section

variable {wanted wanted' a a' : Int} {allowed allowed' : List Int}

/-- The nearest interval depends only on which intervals are allowed. -/
theorem Nearest.congr (h : Nearest wanted allowed a) (hmem : ∀ b, b ∈ allowed' ↔ b ∈ allowed) :
    Nearest wanted allowed' a where
  mem := (hmem a).mpr h.mem
  closest b hb := h.closest b ((hmem b).mp hb)
  least b hb := h.least b ((hmem b).mp hb)

/-- Of two intervals that are nearest to two wanted ones, the smaller belongs to the smaller. -/
theorem Nearest.mono (h : Nearest wanted allowed a) (h' : Nearest wanted' allowed a')
    (hle : wanted ≤ wanted') : a ≤ a' := by
  have hclosest := h.closest a' h'.mem
  have hclosest' := h'.closest a h.mem
  have hleast := h.least a' h'.mem
  omega

theorem Nearest.unique (h : Nearest wanted allowed a) (h' : Nearest wanted allowed a') : a = a' :=
  Int.le_antisymm (h.mono h' (Int.le_refl wanted)) (h'.mono h (Int.le_refl wanted))

theorem nearest_of_mem (h : wanted ∈ allowed) : Nearest wanted allowed wanted where
  mem := h
  closest b _ := by omega
  least b _ hb := by omega

/-! ## Going through the allowed intervals -/

theorem nearest_singleton (wanted a : Int) : Nearest wanted [a] a where
  mem := List.mem_singleton_self a
  closest := by simp
  least := by simp

theorem fitsBetter_iff {c : Int} :
    fitsBetter wanted c a = true ↔ (c - wanted).natAbs < (a - wanted).natAbs ∨
      ((c - wanted).natAbs = (a - wanted).natAbs ∧ c < a) := by
  simp [fitsBetter]

/-- One more interval takes the place of the best so far exactly where it fits better. -/
theorem Nearest.step (h : Nearest wanted allowed a) (c : Int) :
    Nearest wanted (allowed ++ [c]) (if fitsBetter wanted c a then c else a) := by
  have hsplit : ∀ b ∈ allowed ++ [c], b ∈ allowed ∨ b = c := by simp
  split
  · rename_i hbetter
    rw [fitsBetter_iff] at hbetter
    refine ⟨List.mem_append_right _ (List.mem_singleton_self c), fun b hb => ?_, fun b hb hd => ?_⟩
    · rcases hsplit b hb with hb | rfl
      · have := h.closest b hb
        omega
      · exact Nat.le_refl _
    · rcases hsplit b hb with hb | rfl
      · have := h.closest b hb
        have := h.least b hb
        omega
      · exact Int.le_refl b
  · rename_i hbetter
    rw [fitsBetter_iff] at hbetter
    refine ⟨List.mem_append_left _ h.mem, fun b hb => ?_, fun b hb hd => ?_⟩
    · rcases hsplit b hb with hb | rfl
      · exact h.closest b hb
      · omega
    · rcases hsplit b hb with hb | rfl
      · exact h.least b hb hd
      · omega

theorem Nearest.foldl (h : Nearest wanted allowed a) (rest : List Int) :
    Nearest wanted (allowed ++ rest)
      (rest.foldl (fun best c => if fitsBetter wanted c best then c else best) a) := by
  induction rest generalizing allowed a with
  | nil => simpa using h
  | cons c rest ih =>
    rw [List.foldl_cons, List.append_cons]
    exact ih (h.step c)

theorem nearest_of_snap? (h : snap? wanted allowed = some a) : Nearest wanted allowed a := by
  cases allowed with
  | nil => cases h
  | cons first rest =>
    rw [snap?, pick, Option.some.injEq] at h
    exact h ▸ (nearest_singleton wanted first).foldl rest

theorem exists_snap? (hne : allowed ≠ []) (wanted : Int) : ∃ a, snap? wanted allowed = some a := by
  cases allowed with
  | nil => exact absurd rfl hne
  | cons first rest => exact ⟨_, rfl⟩

theorem snap?_eq_some_iff : snap? wanted allowed = some a ↔ Nearest wanted allowed a := by
  refine ⟨nearest_of_snap?, fun h => ?_⟩
  obtain ⟨b, hb⟩ := exists_snap? (List.ne_nil_of_mem h.mem) wanted
  rw [hb, h.unique (nearest_of_snap? hb)]

end

theorem nearest_snapMinutes (n : Int) : Nearest n minutes (snapMinutes n) :=
  nearest_of_snap? (show snap? n minutes = some (snapMinutes n) from rfl)

theorem nearest_snapHours (n : Int) : Nearest n hours (snapHours n) :=
  nearest_of_snap? (show snap? n hours = some (snapHours n) from rfl)

/-! ## The law -/

/-- Where any interval is allowed, a wanted one is moved to the nearest allowed one, and to the
smallest of those that are as near. A greater wanted interval is never moved to a smaller allowed
one, an allowed interval stays where it is, and neither the order of the allowed intervals nor how
often one is listed plays a part. -/
theorem a_wanted_interval_is_moved_to_the_nearest_allowed_one (allowed : List Int)
    (hne : allowed ≠ []) :
    ∃ snap : Int → Int, (∀ wanted, snap? wanted allowed = some (snap wanted)) ∧
      (∀ wanted, Nearest wanted allowed (snap wanted)) ∧
      (∀ wanted wanted', wanted ≤ wanted' → snap wanted ≤ snap wanted') ∧
      (∀ wanted ∈ allowed, snap wanted = wanted) ∧
      ∀ allowed', (∀ b, b ∈ allowed' ↔ b ∈ allowed) →
        ∀ wanted, snap? wanted allowed' = some (snap wanted) := by
  have hsome : ∀ wanted, ∃ a, snap? wanted allowed = some a := exists_snap? hne
  let snap := fun wanted => (hsome wanted).choose
  have hsnap : ∀ wanted, snap? wanted allowed = some (snap wanted) :=
    fun wanted => (hsome wanted).choose_spec
  have hnearest : ∀ wanted, Nearest wanted allowed (snap wanted) :=
    fun wanted => nearest_of_snap? (hsnap wanted)
  refine ⟨snap, hsnap, hnearest, fun wanted wanted' hle => ?_, fun wanted hmem => ?_,
    fun allowed' hmem wanted => ?_⟩
  · exact (hnearest wanted).mono (hnearest wanted') hle
  · exact (hnearest wanted).unique (nearest_of_mem hmem)
  · exact snap?_eq_some_iff.mpr ((hnearest wanted).congr hmem)

/-- The intervals in minutes, with 3 half way between 1 and 5. -/
theorem a_wanted_interval_is_moved_to_the_nearest_minutes :
    Nearest 3 minutes 1 ∧ (∀ wanted, Nearest wanted minutes (snapMinutes wanted)) ∧
      (∀ wanted wanted', wanted ≤ wanted' → snapMinutes wanted ≤ snapMinutes wanted') ∧
      ∀ wanted, snap? wanted [30, 5, 15, 1, 5, 10] = some (snapMinutes wanted) := by
  obtain ⟨snap, hsnap, hnearest, hmono, _, hsame⟩ :=
    a_wanted_interval_is_moved_to_the_nearest_allowed_one minutes (by decide)
  have hminutes : snap = snapMinutes := by
    funext wanted
    rw [snapMinutes, hsnap, Option.getD_some]
  subst hminutes
  refine ⟨hnearest 3, hnearest, hmono, hsame _ fun b => ?_⟩
  simp only [minutes, List.mem_cons, List.not_mem_nil, or_false]
  omega

end Flowscript.Interval
