-- The schedule that a text gets. A text is looked at as an alias and as five
-- fields, and gets what it asks for, the interval next to it, or a daily
-- trigger. The calls that a clock trigger accepts are listed by `Accepted`; a
-- schedule without a note is one that was asked for in just these words.
import Flowscript.Proofs.Intervals
import Flowscript.Proofs.ScheduleFields

namespace Flowscript

namespace Schedule

open Text

/-! ## Texts -/

/-- The text that is looked at: the alias of every day stands for the empty one. -/
def lookedAt (s : String) : String := trim (if s = "" then "@daily" else s)

theorem lookedAt_of_ne {s : String} (h : s ≠ "") : lookedAt s = trim s := by
  rw [lookedAt, if_neg h]

/-- A text of five words is no alias, and its fields decide. -/
theorem ofShape?_of_words {s M H A B D : String} (hs : words s = [M, H, A, B, D]) :
    ofShape? (lookedAt s) = ofFields? M H A B D := by
  have hne : s ≠ "" := by
    rintro rfl
    cases hs
  have hwords : words (trim s) = [M, H, A, B, D] := (words_trim s).trans hs
  have halias : aliases.lookup (trim s) = none := by
    rw [List.lookup_eq_none_iff]
    intro entry hentry
    have hone : (aliases.all fun e => (words e.1).length = 1) = true := by decide
    have hlength := of_decide_eq_true (List.all_eq_true.mp hone entry hentry)
    rw [bne_iff_ne]
    intro htrim
    rw [← htrim, hwords] at hlength
    cases hlength
  unfold ofShape?
  rw [lookedAt_of_ne hne, halias, hwords]

theorem ofShape?_of_alias {s : String} {t : Timing} (h : aliases.lookup (trim s) = some t) :
    ofShape? (lookedAt s) = .ok (some ⟨t, none⟩) := by
  have hne : s ≠ "" := by
    rintro rfl
    cases h
  unfold ofShape?
  rw [lookedAt_of_ne hne, h]

/-- What is asked for is found, unless a number stops the reading. -/
theorem Wants.found {s : String} {t : Timing} (h : Wants s t) (hs : ¬ Stuck s) :
    ofShape? (lookedAt s) = .ok (granted t) := by
  cases h with
  | empty h =>
    subst h
    rfl
  | hourly h => exact ofShape?_of_alias (by rw [h]; rfl)
  | daily h => exact ofShape?_of_alias (by rw [h]; rfl)
  | weekly h => exact ofShape?_of_alias (by rw [h]; rfl)
  | minutes h hN =>
    rw [ofShape?_of_words h, ofFields?_minutes hN, if_neg fun hlong => hs (.minutes h hN hlong)]
  | hours h hN =>
    rw [ofShape?_of_words h, ofFields?_hours hN, if_neg fun hlong => hs (.hours h hN hlong)]
  | dailyAt h hM hH =>
    rw [ofShape?_of_words h, ofFields?_of_spells hM hH]
    exact timed?_daily hM hH (fun hread => hs (.minute h hread)) fun hread => hs (.hour h hread)
  | weeklyAt h hM hH hD =>
    rw [ofShape?_of_words h, ofFields?_of_spells hM hH]
    exact timed?_weekly hM hH (fun hread => hs (.minute h hread)) (fun hread => hs (.hour h hread)) hD

/-- A text is an alias, has five fields, or has no shape that is known. -/
theorem ofShape?_cases (s : String) :
    (∃ t, aliases.lookup (lookedAt s) = some t ∧
      ofShape? (lookedAt s) = .ok (some ⟨t, none⟩)) ∨
    (∃ M H A B D, words s = [M, H, A, B, D] ∧
      ofShape? (lookedAt s) = ofFields? M H A B D) ∨
    ofShape? (lookedAt s) = .ok none := by
  cases halias : aliases.lookup (lookedAt s) with
  | some t =>
    refine Or.inl ⟨t, rfl, ?_⟩
    unfold ofShape?
    rw [halias]
  | none =>
    have hne : s ≠ "" := by
      rintro rfl
      cases halias
    have hwords : words (lookedAt s) = words s := by rw [lookedAt_of_ne hne, words_trim]
    refine Or.inr ?_
    unfold ofShape?
    rw [halias, hwords]
    dsimp only
    split
    · rename_i M H A B D hs
      exact Or.inl ⟨M, H, A, B, D, hs, rfl⟩
    · exact Or.inr rfl

theorem wants_of_alias {s : String} {t : Timing} (h : aliases.lookup (lookedAt s) = some t) :
    Wants s t ∧ granted t = some ⟨t, none⟩ := by
  by_cases hs : s = ""
  · subst hs
    cases h
    exact ⟨.empty rfl, rfl⟩
  rw [lookedAt_of_ne hs] at h
  obtain ⟨before, after, hsplit, _⟩ := List.lookup_eq_some_iff.mp h
  have hmem : (trim s, t) ∈ aliases := by
    rw [hsplit]
    simp
  simp only [aliases, List.mem_cons, Prod.mk.injEq, List.not_mem_nil, or_false] at hmem
  rcases hmem with ⟨htrim, rfl⟩ | ⟨htrim, rfl⟩ | ⟨htrim, rfl⟩
  · exact ⟨.hourly htrim, rfl⟩
  · exact ⟨.daily htrim, rfl⟩
  · exact ⟨.weekly htrim, rfl⟩

/-- Whatever is found was asked for. -/
theorem wants_of_ofShape? {s : String} {found : Schedule}
    (h : ofShape? (lookedAt s) = .ok (some found)) : ∃ t, Wants s t ∧ granted t = some found := by
  rcases ofShape?_cases s with ⟨t, halias, hok⟩ | ⟨M, H, A, B, D, hs, hfields⟩ | hnone
  · cases hok.symm.trans h
    exact ⟨t, wants_of_alias halias⟩
  · exact wants_of_ofFields? hs (hfields.symm.trans h)
  · cases hnone.symm.trans h

theorem stuck_iff {s : String} : (∃ e, ofShape? (lookedAt s) = .error e) ↔ Stuck s := by
  constructor
  · rintro ⟨e, he⟩
    rcases ofShape?_cases s with ⟨t, _, hok⟩ | ⟨M, H, A, B, D, hs, hfields⟩ | hnone
    · cases hok.symm.trans he
    · exact stuck_of_ofFields? hs (hfields.symm.trans he)
    · cases hnone.symm.trans he
  · intro h
    cases h with
    | minute h hM =>
      rw [ofShape?_of_words h]
      exact ofFields?_of_unreadable (Or.inl hM)
    | hour h hH =>
      rw [ofShape?_of_words h]
      exact ofFields?_of_unreadable (Or.inr hH)
    | minutes h hN hlong =>
      rw [ofShape?_of_words h, ofFields?_minutes hN, if_pos hlong]
      exact ⟨_, rfl⟩
    | hours h hN hlong =>
      rw [ofShape?_of_words h, ofFields?_hours hN, if_pos hlong]
      exact ⟨_, rfl⟩

/-- The daily trigger that stands for a text of no known shape, with a note that says so. -/
def fallback (s : String) : Schedule :=
  ⟨.everyDay, some s!"unsupported schedule '{lookedAt s}', falling back to daily"⟩

/-- What becomes of a text: a number stops its reading, it gets the schedule that it asks for, or it
gets the daily trigger, since it asks for nothing that a clock trigger has. -/
theorem ofText_cases (s : String) :
    (Stuck s ∧ ∃ e, (ofText s).outcome = .error e) ∨
    (¬ Stuck s ∧ ∃ t found, Wants s t ∧ granted t = some found ∧
      (ofText s).outcome = .ok found) ∨
    (¬ Stuck s ∧ (∀ t, Wants s t → granted t = none) ∧ (ofText s).outcome = .ok (fallback s)) := by
  have htext : (ofText s).outcome =
      ((ofShape? (lookedAt s)).mapError .number).bind fun found =>
        .ok (found.getD (fallback s)) := by
    unfold ofText
    dsimp only
    rw [← lookedAt]
    generalize ofShape? (lookedAt s) = shape
    rcases shape with _ | _ | _ <;> rfl
  rw [htext]
  cases hshape : ofShape? (lookedAt s) with
  | error e => exact Or.inl ⟨stuck_iff.mp ⟨e, hshape⟩, _, rfl⟩
  | ok found =>
    have hs : ¬ Stuck s := fun hs => by
      obtain ⟨e, he⟩ := stuck_iff.mpr hs
      cases hshape.symm.trans he
    refine Or.inr ?_
    cases found with
    | some found =>
      obtain ⟨t, ht, hgranted⟩ := wants_of_ofShape? hshape
      exact Or.inl ⟨hs, t, found, ht, hgranted, rfl⟩
    | none =>
      refine Or.inr ⟨hs, fun t ht => ?_, rfl⟩
      exact Except.ok.inj ((ht.found hs).symm.trans hshape)

end Schedule

/-! ## Intervals -/

namespace Interval

theorem snapMinutes_mem (n : Int) : snapMinutes n ∈ minutes := (nearest_snapMinutes n).mem

theorem snapHours_mem (n : Int) : snapHours n ∈ hours := (nearest_snapHours n).mem

theorem snapMinutes_of_mem {n : Int} (h : n ∈ minutes) : snapMinutes n = n :=
  (nearest_snapMinutes n).unique (nearest_of_mem h)

theorem snapHours_of_mem {n : Int} (h : n ∈ hours) : snapHours n = n :=
  (nearest_snapHours n).unique (nearest_of_mem h)

end Interval

namespace Schedule

/-! ## Chains -/

/-- The calls that a clock trigger accepts, each with the timing that it sets. -/
inductive Accepted : Timing → String → Prop where
  | everyMinutes {n : Int} (h : n ∈ [1, 5, 10, 15, 30]) :
      Accepted (.everyMinutes n) ("everyMinutes(" ++ toString n ++ ")")
  | everyHours {n : Int} (h : n ∈ [1, 2, 4, 6, 8, 12]) :
      Accepted (.everyHours n) ("everyHours(" ++ toString n ++ ")")
  | everyDay : Accepted .everyDay "everyDays(1)"
  | everyWeek : Accepted .everyWeek "everyWeeks(1)"
  | dailyAt {hour minute : Int} (hh : 0 ≤ hour ∧ hour ≤ 23) (hm : 0 ≤ minute ∧ minute ≤ 59) :
      Accepted (.dailyAt hour minute)
        ("everyDays(1).atHour(" ++ toString hour ++ ").nearMinute(" ++ toString minute ++ ")")
  | weeklyAt {day : Weekday} {hour minute : Int} (hh : 0 ≤ hour ∧ hour ≤ 23)
      (hm : 0 ≤ minute ∧ minute ≤ 59) :
      Accepted (.weeklyAt day hour minute)
        ("onWeekDay(ScriptApp.WeekDay." ++ day.name ++ ").atHour(" ++ toString hour ++
          ").nearMinute(" ++ toString minute ++ ")")

/-- A timing that is accepted is granted as it is, and its calls are those of its chain. -/
theorem Accepted.granted {t : Timing} {chain : String} (h : Accepted t chain) :
    granted t = some ⟨t, none⟩ ∧ t.chain = chain := by
  cases h with
  | everyMinutes h =>
    refine ⟨?_, rfl⟩
    simp [Schedule.granted, repeated, Interval.snapMinutes_of_mem h]
  | everyHours h =>
    refine ⟨?_, rfl⟩
    simp [Schedule.granted, repeated, Interval.snapHours_of_mem h]
  | everyDay => exact ⟨rfl, rfl⟩
  | everyWeek => exact ⟨rfl, rfl⟩
  | dailyAt hh hm => exact ⟨if_pos ⟨hh, hm⟩, rfl⟩
  | weeklyAt hh hm => exact ⟨if_pos ⟨hh, hm⟩, rfl⟩

/-- Whatever is granted is accepted, and only a snapped interval has a note. -/
theorem accepted_of_granted {t : Timing} {found : Schedule} (h : granted t = some found) :
    Accepted found.timing found.timing.chain ∧ (found.note = none → found.timing = t) := by
  cases t with
  | everyMinutes n =>
    cases h
    refine ⟨.everyMinutes (Interval.snapMinutes_mem n), fun hnote => ?_⟩
    simp only [repeated, ite_eq_left_iff, reduceCtorEq, imp_false, not_not] at hnote ⊢
    rw [hnote]
  | everyHours n =>
    cases h
    refine ⟨.everyHours (Interval.snapHours_mem n), fun hnote => ?_⟩
    simp only [repeated, ite_eq_left_iff, reduceCtorEq, imp_false, not_not] at hnote ⊢
    rw [hnote]
  | everyDay =>
    cases h
    exact ⟨.everyDay, fun _ => rfl⟩
  | everyWeek =>
    cases h
    exact ⟨.everyWeek, fun _ => rfl⟩
  | dailyAt hour minute =>
    obtain ⟨hrange, hfound⟩ := Option.ite_none_right_eq_some.mp h
    cases hfound
    exact ⟨.dailyAt hrange.1 hrange.2, fun _ => rfl⟩
  | weeklyAt day hour minute =>
    obtain ⟨hrange, hfound⟩ := Option.ite_none_right_eq_some.mp h
    cases hfound
    exact ⟨.weeklyAt hrange.1 hrange.2, fun _ => rfl⟩

theorem inRange_of_granted {t : Timing} {found : Schedule} (h : granted t = some found) :
    InRange t := by
  cases t with
  | everyMinutes n => trivial
  | everyHours n => trivial
  | everyDay => trivial
  | everyWeek => trivial
  | dailyAt hour minute => exact (Option.ite_none_right_eq_some.mp h).1
  | weeklyAt day hour minute => exact (Option.ite_none_right_eq_some.mp h).1

/-- A text that is translated gets calls that a clock trigger accepts. It gets them without a note
just where it asks for a timing that is accepted as it is, and then they set that timing: with the
numbers and the day of the text. -/
theorem a_text_without_a_note_gets_the_timing_it_spells (s : String) (found : Schedule)
    (h : (ofText s).outcome = .ok found) :
    (∃ t, Accepted t found.timing.chain) ∧
    (found.note = none ↔ ∃ t chain, Wants s t ∧ Accepted t chain) ∧
    ∀ t chain, Wants s t → Accepted t chain → found.timing.chain = chain := by
  have hfound : ∀ t chain, Wants s t → Accepted t chain →
      found = ⟨t, none⟩ ∧ t.chain = chain := by
    intro t chain ht haccepted
    obtain ⟨hgranted, hchain⟩ := haccepted.granted
    refine ⟨?_, hchain⟩
    rcases ofText_cases s with ⟨_, e, he⟩ | ⟨hs, t', found', ht', hgranted', hok⟩ | ⟨_, hnone, _⟩
    · cases he.symm.trans h
    · have hshape := (ht.found hs).symm.trans (ht'.found hs)
      rw [hgranted, hgranted'] at hshape
      cases hshape
      exact Except.ok.inj (h.symm.trans hok)
    · cases hgranted.symm.trans (hnone t ht)
  refine ⟨?_, ⟨fun hnote => ?_, ?_⟩, ?_⟩
  · rcases ofText_cases s with ⟨_, e, he⟩ | ⟨_, t, found', _, hgranted, hok⟩ | ⟨_, _, hok⟩
    · cases he.symm.trans h
    · cases hok.symm.trans h
      exact ⟨_, (accepted_of_granted hgranted).1⟩
    · cases hok.symm.trans h
      exact ⟨_, .everyDay⟩
  · rcases ofText_cases s with ⟨_, e, he⟩ | ⟨_, t, found', ht, hgranted, hok⟩ | ⟨_, _, hok⟩
    · cases he.symm.trans h
    · cases hok.symm.trans h
      obtain ⟨haccepted, htiming⟩ := accepted_of_granted hgranted
      exact ⟨t, _, ht, htiming hnote ▸ haccepted⟩
    · cases hok.symm.trans h
      cases hnote
  · rintro ⟨t, chain, ht, haccepted⟩
    rw [(hfound t chain ht haccepted).1]
  · intro t chain ht haccepted
    obtain ⟨rfl, hchain⟩ := hfound t chain ht haccepted
    exact hchain

/-- Digits of two scripts, a day in small letters, and blanks of several kinds. -/
theorem a_time_of_day_in_two_scripts_is_translated :
    (ofText "\t05  \u0661\u0669 * * sun ").outcome = .ok ⟨.weeklyAt .sunday 19 5, none⟩ ∧
    ∃ t chain, Wants "\t05  \u0661\u0669 * * sun " t ∧ Accepted t chain := by
  have hrun : (ofText "\t05  \u0661\u0669 * * sun ").outcome =
      .ok ⟨.weeklyAt .sunday 19 5, none⟩ := rfl
  exact ⟨hrun, (a_text_without_a_note_gets_the_timing_it_spells _ _ hrun).2.1.mp rfl⟩

end Schedule

end Flowscript
