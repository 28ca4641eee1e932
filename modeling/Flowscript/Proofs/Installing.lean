-- Installing a trigger from what its user set. Nothing but a number stops it,
-- and which numbers do is stated on the settings of the node.
import Flowscript.Proofs.Printing
import Flowscript.Proofs.Schedules
import Flowscript.Trigger.Installer

namespace Flowscript

theorem Value.toWhole_eq_infinite {v : Value} :
    v.toWhole = .error .infinite ↔ ∃ negative, v = .real (.infinite negative) := by
  constructor
  · intro h
    cases v with
    | real x =>
      cases x with
      | finite negative mantissa exponent => cases h
      | infinite negative => exact ⟨negative, rfl⟩
      | nan => cases h
    | text s =>
      have hread : wholeOfText s ≠ .error .infinite := by
        unfold wholeOfText
        split <;> simp
      exact absurd h hread
    | null => cases h
    | bool b => cases h
    | int n => cases h
    | list vs => cases h
    | object fields => cases h
  · rintro ⟨negative, rfl⟩
    rfl

namespace Installer

open Schedule (Stuck Wants InRange fallback)

/-- The value that says how often a node polls. -/
def intervalOf (config : Fields) : Value :=
  (config.get? "pollingInterval").getD (.int defaultMinutes)

/-- An interval stops the reading: it is infinite, or it is no whole number and cannot be printed in
the warning about that. -/
inductive Unread (v : Value) : Prop where
  | infinite {negative : Bool} (h : v = .real (.infinite negative)) : Unread v
  | unprintable (hwhole : ∀ k, v.toWhole ≠ .ok k) (h : v.isPrintable = false) : Unread v

/-- What becomes of an interval: it is snapped, it stops the reading, or the default stands for it. -/
theorem pollingMinutes_cases (n : PlannedNode) :
    (∃ k, (intervalOf n.config).toWhole = .ok k ∧
      (pollingMinutes n).outcome = .ok (Interval.snapMinutes k)) ∨
    (Unread (intervalOf n.config) ∧ ∃ f, (pollingMinutes n).outcome = .error f) ∨
    ((∀ k, (intervalOf n.config).toWhole ≠ .ok k) ∧ ¬ Unread (intervalOf n.config) ∧
      (pollingMinutes n).outcome = .ok defaultMinutes) := by
  unfold pollingMinutes
  rw [← intervalOf]
  dsimp only
  split
  · next k hk => exact Or.inl ⟨k, hk, rfl⟩
  · next hinfinite =>
    obtain ⟨negative, hvalue⟩ := Value.toWhole_eq_infinite.mp hinfinite
    exact Or.inr (Or.inl ⟨.infinite hvalue, _, rfl⟩)
  · next e hnot he =>
    have hwhole : ∀ k, (intervalOf n.config).toWhole ≠ .ok k := by
      intro k hk
      cases he.symm.trans hk
    cases hprint : (intervalOf n.config).isPrintable with
    | false =>
      refine Or.inr (Or.inl ⟨.unprintable hwhole hprint, .number .tooWide, ?_⟩)
      refine Traced.bind_eq_error.mpr (Or.inl ?_)
      show (intervalOf n.config).requirePrintable = _
      simp [Value.requirePrintable, hprint]
    | true =>
      refine Or.inr (Or.inr ⟨hwhole, ?_, ?_⟩)
      · rintro (⟨hvalue⟩ | ⟨_, hnone⟩)
        · have hinfinite := Value.toWhole_eq_infinite.mpr ⟨_, hvalue⟩
          exact hnot (Except.error.inj (he.symm.trans hinfinite))
        · cases hprint.symm.trans hnone
      · exact Traced.bind_eq_ok.mpr ⟨(), Value.requirePrintable_eq_ok.mpr hprint, rfl⟩

theorem pollingMinutes_returns_iff {n : PlannedNode} :
    (∃ minutes, (pollingMinutes n).outcome = .ok minutes) ↔ ¬ Unread (intervalOf n.config) := by
  rcases pollingMinutes_cases n with ⟨k, hk, hok⟩ | ⟨hunread, f, herror⟩ | ⟨_, hread, hok⟩
  · refine ⟨fun _ => ?_, fun _ => ⟨_, hok⟩⟩
    rintro (⟨hvalue⟩ | ⟨hwhole, _⟩)
    · cases hk.symm.trans (Value.toWhole_eq_infinite.mpr ⟨_, hvalue⟩)
    · exact hwhole k hk
  · refine ⟨fun ⟨minutes, hok⟩ => ?_, fun hread => absurd hunread hread⟩
    cases herror.symm.trans hok
  · exact ⟨fun _ => hread, fun _ => ⟨_, hok⟩⟩

theorem ofText_returns_iff {s : String} :
    (∃ found, (Schedule.ofText s).outcome = .ok found) ↔ ¬ Stuck s := by
  rcases Schedule.ofText_cases s with ⟨hs, e, he⟩ | ⟨hs, _, _, _, _, hok⟩ | ⟨hs, _, hok⟩
  · refine ⟨fun ⟨found, hok⟩ => ?_, fun hnot => absurd hs hnot⟩
    cases he.symm.trans hok
  · exact ⟨fun _ => hs, fun _ => ⟨_, hok⟩⟩
  · exact ⟨fun _ => hs, fun _ => ⟨_, hok⟩⟩

theorem returns_bind_pure {α β : Type} {x : Traced α} {f : α → β} :
    (∃ b, (x >>= fun a => pure (f a)).outcome = .ok b) ↔ ∃ a, x.outcome = .ok a := by
  constructor
  · rintro ⟨b, hb⟩
    obtain ⟨a, ha, _⟩ := Traced.bind_eq_ok.mp hb
    exact ⟨a, ha⟩
  · rintro ⟨a, ha⟩
    exact ⟨f a, Traced.bind_eq_ok.mpr ⟨a, ha, rfl⟩⟩

/-- A number that a user set stops the installing of a node. -/
inductive Stopped (n : PlannedNode) : Prop where
  | unprintable (hkind : n.kind? = some .timeTrigger)
      (h : (scheduleOf n.config).isPrintable = false) : Stopped n
  | schedule (hkind : n.kind? = some .timeTrigger) (h : Stuck (scheduleOf n.config).plain) :
      Stopped n
  | polling (hkind : n.kind? = some .gmailTrigger ∨ n.kind? = some .sheetsTrigger)
      (h : Unread (intervalOf n.config)) : Stopped n

/-- A clock is installed where its schedule can be printed and read. -/
theorem installSteps_of_time {n : PlannedNode} {steps : List Step}
    (hkind : n.kind? = some .timeTrigger) :
    (installSteps n).outcome = .ok steps ↔ (scheduleOf n.config).isPrintable = true ∧
      ∃ found, (Schedule.ofText (scheduleOf n.config).plain).outcome = .ok found ∧
        clockSteps n found = steps := by
  unfold installSteps
  rw [hkind]
  dsimp only
  rw [Traced.bind_eq_ok]
  constructor
  · rintro ⟨raw, hraw, h⟩
    obtain ⟨hprint, rfl⟩ := Value.print_eq_ok.mp hraw
    obtain ⟨found, hfound, h⟩ := Traced.bind_eq_ok.mp h
    exact ⟨hprint, found, hfound, Except.ok.inj h⟩
  · rintro ⟨hprint, found, hfound, rfl⟩
    exact ⟨_, Value.print_eq_ok.mpr ⟨hprint, rfl⟩, Traced.bind_eq_ok.mpr ⟨found, hfound, rfl⟩⟩

theorem pollingSteps_returns_iff {n : PlannedNode} {source : String} :
    (∃ steps, (pollingSteps n source).outcome = .ok steps) ↔ ¬ Unread (intervalOf n.config) :=
  returns_bind_pure.trans pollingMinutes_returns_iff

theorem installSteps_of_polling {n : PlannedNode} {source : String}
    (hkind : n.kind? = some .gmailTrigger ∨ n.kind? = some .sheetsTrigger) :
    (∃ steps, (pollingSteps n source).outcome = .ok steps) ↔ ¬ Stopped n := by
  refine pollingSteps_returns_iff.trans (not_congr ⟨.polling hkind, ?_⟩)
  rintro (⟨hother, _⟩ | ⟨hother, _⟩ | ⟨_, h⟩)
  · simp [hother] at hkind
  · simp [hother] at hkind
  · exact h

theorem installSteps_returns_iff {n : PlannedNode} :
    (∃ steps, (installSteps n).outcome = .ok steps) ↔ ¬ Stopped n := by
  by_cases htime : n.kind? = some .timeTrigger
  · simp only [installSteps_of_time htime]
    constructor
    · rintro ⟨steps, hprint, found, hfound, _⟩ (⟨_, hnone⟩ | ⟨_, hstuck⟩ | ⟨hother, _⟩)
      · cases hprint.symm.trans hnone
      · exact ofText_returns_iff.mp ⟨found, hfound⟩ hstuck
      · simp [htime] at hother
    · intro hnot
      obtain ⟨found, hfound⟩ := ofText_returns_iff.mpr fun hstuck => hnot (.schedule htime hstuck)
      have hprint : (scheduleOf n.config).isPrintable = true := by
        rw [← Bool.not_eq_false]
        exact fun hnone => hnot (.unprintable htime hnone)
      exact ⟨_, hprint, found, hfound, rfl⟩
  · unfold installSteps
    split
    · next hkind => exact absurd hkind htime
    · next hkind => exact installSteps_of_polling (Or.inl hkind)
    · next hkind => exact installSteps_of_polling (Or.inr hkind)
    · next hkind =>
      refine ⟨fun _ => ?_, fun _ => ⟨_, rfl⟩⟩
      rintro (⟨hother, _⟩ | ⟨hother, _⟩ | ⟨hother, _⟩) <;> simp [hkind] at hother
    · next hgmail hsheets _ =>
      refine ⟨fun _ => ?_, fun _ => ⟨_, rfl⟩⟩
      rintro (⟨hother, _⟩ | ⟨hother, _⟩ | ⟨hother | hother, _⟩)
      · exact htime hother
      · exact htime hother
      · exact hgmail hother
      · exact hsheets hother

/-- A trigger is installed whatever its user set, unless a number stops it: one in the schedule that
cannot be read, an infinite interval, or a whole number of too many digits in a schedule or a
refused interval that has to be printed. A schedule that asks for nothing a clock trigger has
becomes a daily trigger with a note, an interval that is no whole number becomes the default, and
minutes between polls are always minutes that a clock trigger accepts. -/
theorem a_trigger_is_installed_unless_a_number_stops_it (n : PlannedNode) :
    ((∃ steps, (installSteps n).outcome = .ok steps) ↔ ¬ Stopped n) ∧
    (∀ s, ((∃ found, (Schedule.ofText s).outcome = .ok found) ↔ ¬ Stuck s) ∧
      ∀ found, (Schedule.ofText s).outcome = .ok found →
        (∀ t, Wants s t → ¬ InRange t) → found = fallback s) ∧
    ((∃ minutes, (pollingMinutes n).outcome = .ok minutes) ↔ ¬ Unread (intervalOf n.config)) ∧
    ∀ minutes, (pollingMinutes n).outcome = .ok minutes → minutes ∈ [1, 5, 10, 15, 30] ∧
      ((∀ k, (intervalOf n.config).toWhole ≠ .ok k) → minutes = 5) := by
  refine ⟨installSteps_returns_iff, fun s => ⟨ofText_returns_iff, fun found hfound hout => ?_⟩,
    pollingMinutes_returns_iff, fun minutes hminutes => ?_⟩
  · rcases Schedule.ofText_cases s with ⟨_, e, he⟩ | ⟨_, t, found', ht, hgranted, _⟩ | ⟨_, _, hok⟩
    · cases he.symm.trans hfound
    · exact absurd (Schedule.inRange_of_granted hgranted) (hout t ht)
    · exact Except.ok.inj (hfound.symm.trans hok)
  · rcases pollingMinutes_cases n with ⟨k, hk, hok⟩ | ⟨_, f, herror⟩ | ⟨_, _, hok⟩
    · cases hok.symm.trans hminutes
      exact ⟨Interval.snapMinutes_mem k, fun hnone => absurd hk (hnone k)⟩
    · cases herror.symm.trans hminutes
    · cases hok.symm.trans hminutes
      exact ⟨by decide, fun _ => rfl⟩

/-- A raised two counts as a digit but spells no number, and an endless interval is no number of
minutes. -/
theorem a_raised_digit_and_an_endless_interval_stop_a_trigger :
    (installSteps ⟨"t", "trigger.time.cron", "execute_t",
      [("schedule", .text "² 5 * * *")]⟩).outcome = .error (.number (.wholeText "²")) ∧
    (installSteps ⟨"g", "trigger.gmail.new_email", "execute_g",
      [("pollingInterval", .real (.infinite false))]⟩).outcome = .error (.number .infinite) :=
  ⟨rfl, rfl⟩

end Installer
end Flowscript
