-- The fields of a schedule. `Wants` says which timings a text asks for and
-- `Stuck` which texts hold a number that stops their reading; both are stated
-- on the words of the text. The two cases that ask for an interval come first
-- in the reader, and neither of them has a minute and an hour that are
-- numbers, so the order of the cases does not show.
import Flowscript.Proofs.Journal
import Flowscript.Proofs.Numerals
import Flowscript.Trigger.Schedule

namespace Flowscript

namespace Text

/-! ## Words of a trimmed text -/

theorem wordChars_blank {c : Char} (hc : isBlank c = true) (cs : List Char) :
    wordChars (c :: cs) = wordChars cs := by
  rw [wordChars.eq_def]
  simp only [hc, if_true]

theorem wordChars_dropWhile (cs : List Char) : wordChars (cs.dropWhile isBlank) = wordChars cs := by
  induction cs with
  | nil => rfl
  | cons c cs ih =>
    cases hc : isBlank c with
    | true => rw [List.dropWhile_cons_of_pos hc, ih, wordChars_blank hc]
    | false => rw [List.dropWhile_cons_of_neg (by simp [hc])]

/-- A blank at the end parts no words. -/
theorem wordChars_concat_blank {b : Char} (hb : isBlank b = true) (cs : List Char) :
    wordChars (cs ++ [b]) = wordChars cs := by
  induction cs with
  | nil => exact wordChars_blank hb []
  | cons c cs ih =>
    cases hc : isBlank c with
    | true => rw [List.cons_append, wordChars_blank hc, ih, wordChars_blank hc]
    | false =>
      cases cs with
      | nil => simp [wordChars, hc, hb]
      | cons d cs =>
        rw [List.cons_append] at ih
        simp only [List.cons_append, wordChars, hc, Bool.false_eq_true, if_false] at ih ⊢
        rw [ih]

theorem wordChars_append_blanks (cs : List Char) {bs : List Char}
    (hbs : ∀ b ∈ bs, isBlank b = true) : wordChars (cs ++ bs) = wordChars cs := by
  induction bs generalizing cs with
  | nil => rw [List.append_nil]
  | cons b bs ih =>
    obtain ⟨hb, hrest⟩ := List.forall_mem_cons.mp hbs
    rw [← List.singleton_append, ← List.append_assoc, ih (cs ++ [b]) hrest,
      wordChars_concat_blank hb]

theorem words_trim (s : String) : words (trim s) = words s := by
  have hend : ∀ cs : List Char, wordChars (dropEndWhile isBlank cs) = wordChars cs := by
    intro cs
    have hsplit : cs = dropEndWhile isBlank cs ++ (cs.reverse.takeWhile isBlank).reverse := by
      rw [dropEndWhile, ← List.reverse_append, List.takeWhile_append_dropWhile,
        List.reverse_reverse]
    conv_rhs => rw [hsplit]
    refine (wordChars_append_blanks _ fun b hb => ?_).symm
    exact List.mem_takeWhile_imp (List.mem_reverse.mp hb)
  unfold words trim stripChars
  rw [String.toList_ofList, hend, wordChars_dropWhile]

/-! ## Digits in the wide sense -/

/-- The digits that are not decimal lie in four stretches, between which the blanks lie. -/
theorem markedDigitRanges_stretch {r : Nat × Nat} (h : r ∈ markedDigitRanges) :
    (0xb2 ≤ r.1 ∧ r.2 ≤ 0x1371) ∨ (0x19da ≤ r.1 ∧ r.2 ≤ 0x19da) ∨
      (0x2070 ≤ r.1 ∧ r.2 ≤ 0x2792) ∨ 0x10a40 ≤ r.1 := by
  have hall : (markedDigitRanges.all fun r => (0xb2 ≤ r.1 ∧ r.2 ≤ 0x1371) ∨
      (0x19da ≤ r.1 ∧ r.2 ≤ 0x19da) ∨ (0x2070 ≤ r.1 ∧ r.2 ≤ 0x2792) ∨ 0x10a40 ≤ r.1) = true := by
    decide
  simpa using List.all_eq_true.mp hall r h

theorem isBlank_of_isDigitLike {c : Char} (h : isDigitLike c = true) : isBlank c = false := by
  rcases Bool.or_eq_true_iff.mp h with hdecimal | hmarked
  · exact isBlank_of_isDecimal hdecimal
  obtain ⟨r, hr, hin⟩ := List.any_eq_true.mp hmarked
  have hplace := markedDigitRanges_stretch hr
  by_contra hblank
  simp only [isBlank, Bool.not_eq_false, Bool.or_eq_true, Bool.and_eq_true, decide_eq_true_eq,
    beq_iff_eq] at hblank hin
  omega

end Text

namespace Numeral

open Text

/-- Where a digit is not decimal, the text is no whole number: the digits in front of it are read, and
it is left behind. -/
theorem readWhole_eq_error {cs : List Char} (h : ∀ c ∈ cs, isDigitLike c = true)
    (hodd : ∃ c ∈ cs, isDecimal c = false) : ∃ e, readWhole (String.ofList cs) = .error e := by
  have hne : ∀ d, isDigitLike d = false → ∀ c ∈ cs, c ≠ d := by
    rintro d hd c hc rfl
    rw [h c hc] at hd
    cases hd
  have hstrip : stripChars isOuterBlank cs = cs := by
    apply stripChars_of_forall
    intro c hc
    simp [isOuterBlank, isBlank_of_isDigitLike (h c hc)]
  have hsign : takeSign cs = (false, cs) := by
    cases cs with
    | nil => rfl
    | cons c rest =>
      have hminus := hne '-' (by decide) c (by simp)
      have hplus := hne '+' (by decide) c (by simp)
      unfold takeSign
      split <;> simp_all
  have hrest : (cs.span fun c => isDecimal c || c = '_').2.isEmpty = false := by
    obtain ⟨c, hc, hodd⟩ := hodd
    rw [List.span_eq_takeWhile_dropWhile, List.isEmpty_eq_false_iff, ne_eq,
      List.dropWhile_eq_nil_iff]
    intro hall
    have hc' := hall c hc
    simp [hodd, hne '_' (by decide) c hc] at hc'
  unfold readWhole
  simp only [String.toList_ofList, hstrip, hsign, hrest, Bool.not_false, if_true]
  split
  · exact ⟨_, rfl⟩
  · split <;> exact ⟨_, rfl⟩

end Numeral

namespace Schedule

open Text

/-! ## Numbers in a field -/

/-- The text spells the number with decimal digits, of whatever script. -/
structure Spells (field : String) (n : Int) : Prop where
  ne_empty : field ≠ ""
  decimal : ∀ c ∈ field.toList, isDecimal c = true
  value : n = digitsValue field.toList

/-- The text looks like a number and cannot be read as one: a digit of it is not decimal, or there are
too many of them. -/
structure Unreadable (field : String) : Prop where
  ne_empty : field ≠ ""
  digits : ∀ c ∈ field.toList, isDigitLike c = true
  reason : (∃ c ∈ field.toList, isDecimal c = false) ∨ Numeral.maxDigits < field.toList.length

theorem isDigitLike_of_isDecimal {c : Char} (h : isDecimal c = true) : isDigitLike c = true := by
  simp [isDigitLike, h]

theorem Unreadable.fails {field : String} (h : Unreadable field) :
    ∃ e, wholeOfText field = .error e := by
  by_cases hodd : ∃ c ∈ field.toList, isDecimal c = false
  · obtain ⟨e, he⟩ := Numeral.readWhole_eq_error h.digits hodd
    rw [String.ofList_toList] at he
    unfold wholeOfText
    rw [he]
    cases e <;> exact ⟨_, rfl⟩
  · have hall : ∀ c ∈ field.toList, isDecimal c = true := by simpa using hodd
    rw [wholeOfText_digits h.ne_empty hall, if_pos (h.reason.resolve_left hodd)]
    exact ⟨_, rfl⟩

theorem Spells.wholeOfText_eq {field : String} {n : Int} (h : Spells field n) :
    wholeOfText field =
      if Numeral.maxDigits < field.toList.length then .error (.tooLong field.toList.length)
      else .ok n := by
  rw [wholeOfText_digits h.ne_empty h.decimal, h.value]

theorem Spells.unreadable {field : String} {n : Int} (h : Spells field n)
    (hlong : Numeral.maxDigits < field.toList.length) : Unreadable field :=
  ⟨h.ne_empty, fun c hc => isDigitLike_of_isDecimal (h.decimal c hc), Or.inr hlong⟩

theorem Spells.read {field : String} {n : Int} (h : Spells field n) (hread : ¬ Unreadable field) :
    wholeOfText field = .ok n := by
  rw [h.wholeOfText_eq, if_neg fun hlong => hread (h.unreadable hlong)]

/-- A field is read, it stops the reading, or it does not look like a number. -/
theorem readable_cases (field : String) : (∃ n, Spells field n ∧ ¬ Unreadable field) ∨
    Unreadable field ∨ (field ≠ "" && field.toList.all isDigitLike) = false := by
  by_cases hlike : (field ≠ "" && field.toList.all isDigitLike) = true
  · rw [Bool.and_eq_true, decide_eq_true_eq, List.all_eq_true] at hlike
    by_cases hread : Unreadable field
    · exact Or.inr (Or.inl hread)
    · have hall : ∀ c ∈ field.toList, isDecimal c = true := by
        by_contra hodd
        exact hread ⟨hlike.1, hlike.2, Or.inl (by simpa using hodd)⟩
      exact Or.inl ⟨_, ⟨hlike.1, hall, rfl⟩, hread⟩
  · exact Or.inr (Or.inr (by simpa using hlike))

theorem inRange?_of_spells {field : String} {n : Int} (h : Spells field n)
    (hread : ¬ Unreadable field) (low high : Int) :
    inRange? field low high = .ok (if low ≤ n ∧ n ≤ high then some n else none) := by
  have hlike : (field ≠ "" && field.toList.all isDigitLike) = true := by
    rw [Bool.and_eq_true, decide_eq_true_eq, List.all_eq_true]
    exact ⟨h.ne_empty, fun c hc => isDigitLike_of_isDecimal (h.decimal c hc)⟩
  unfold inRange?
  rw [if_pos hlike, h.read hread]
  simp [bind, Except.bind, pure, Except.pure]

theorem inRange?_of_unreadable {field : String} (h : Unreadable field) (low high : Int) :
    ∃ e, inRange? field low high = .error e := by
  have hlike : (field ≠ "" && field.toList.all isDigitLike) = true := by
    rw [Bool.and_eq_true, decide_eq_true_eq, List.all_eq_true]
    exact ⟨h.ne_empty, h.digits⟩
  obtain ⟨e, he⟩ := h.fails
  unfold inRange?
  rw [if_pos hlike, he]
  exact ⟨e, rfl⟩

theorem inRange?_of_other {field : String}
    (h : (field ≠ "" && field.toList.all isDigitLike) = false) (low high : Int) :
    inRange? field low high = .ok none := by
  unfold inRange?
  rw [if_neg (by rw [h]; decide)]

theorem inRange?_eq_error {field : String} {low high : Int} :
    (∃ e, inRange? field low high = .error e) ↔ Unreadable field := by
  refine ⟨?_, fun h => inRange?_of_unreadable h low high⟩
  rintro ⟨e, he⟩
  rcases readable_cases field with ⟨n, hn, hread⟩ | hread | hother
  · rw [inRange?_of_spells hn hread] at he
    cases he
  · exact hread
  · rw [inRange?_of_other hother] at he
    cases he

theorem inRange?_eq_some {field : String} {low high n : Int} :
    inRange? field low high = .ok (some n) → Spells field n ∧ low ≤ n ∧ n ≤ high := by
  intro h
  rcases readable_cases field with ⟨m, hm, hread⟩ | hread | hother
  · rw [inRange?_of_spells hm hread] at h
    simp only [Except.ok.injEq, Option.ite_none_right_eq_some, Option.some.injEq] at h
    obtain ⟨hrange, rfl⟩ := h
    exact ⟨hm, hrange⟩
  · obtain ⟨e, he⟩ := inRange?_of_unreadable hread low high
    rw [h] at he
    cases he
  · rw [inRange?_of_other hother] at h
    cases h

theorem stepDigits?_eq_some {field digits : String} :
    stepDigits? field = some digits ↔
      field = "*/" ++ digits ∧ digits ≠ "" ∧ ∀ c ∈ digits.toList, isDecimal c = true := by
  constructor
  · intro h
    unfold stepDigits? at h
    split at h
    · rename_i ds hfield
      simp only [Option.ite_none_right_eq_some, Option.some.injEq, Bool.and_eq_true,
        List.all_eq_true] at h
      obtain ⟨⟨hne, hall⟩, rfl⟩ := h
      refine ⟨String.toList_inj.mp ?_, ?_, ?_⟩
      · rw [hfield, String.toList_append]
        simp
      · intro hempty
        have hds : ds = [] := by simpa using congrArg String.toList hempty
        simp [hds] at hne
      · rw [String.toList_ofList]
        exact hall
    · cases h
  · rintro ⟨rfl, hne, hall⟩
    have hchars : ("*/" ++ digits).toList = '*' :: '/' :: digits.toList := String.toList_append
    have hlist : digits.toList ≠ [] := by simpa using hne
    unfold stepDigits?
    rw [hchars]
    simpa [hlist] using hall

/-! ## What a text asks for -/

/-- What a text asks for: every day where it is empty, an alias, or five fields of one of four shapes.
Whether a clock trigger can do it is not asked here: the interval may be any number, and so may the
hour and the minute. -/
inductive Wants (s : String) : Timing → Prop where
  | empty (h : s = "") : Wants s .everyDay
  | hourly (h : trim s = "@hourly") : Wants s (.everyHours 1)
  | daily (h : trim s = "@daily") : Wants s .everyDay
  | weekly (h : trim s = "@weekly") : Wants s .everyWeek
  | minutes {N : String} {n : Int} (h : words s = ["*/" ++ N, "*", "*", "*", "*"])
      (hN : Spells N n) : Wants s (.everyMinutes n)
  | hours {N : String} {n : Int} (h : words s = ["0", "*/" ++ N, "*", "*", "*"])
      (hN : Spells N n) : Wants s (.everyHours n)
  | dailyAt {M H : String} {minute hour : Int} (h : words s = [M, H, "*", "*", "*"])
      (hM : Spells M minute) (hH : Spells H hour) : Wants s (.dailyAt hour minute)
  | weeklyAt {M H D : String} {minute hour : Int} {day : Weekday}
      (h : words s = [M, H, "*", "*", D]) (hM : Spells M minute) (hH : Spells H hour)
      (hD : upper D ∈ day.spellings) : Wants s (.weeklyAt day hour minute)

/-- The text has a number that stops its reading: the minute or the hour looks like one and is none,
or the number of an interval has too many digits. -/
inductive Stuck (s : String) : Prop where
  | minute {M H A B D : String} (h : words s = [M, H, A, B, D]) (hM : Unreadable M) : Stuck s
  | hour {M H A B D : String} (h : words s = [M, H, A, B, D]) (hH : Unreadable H) : Stuck s
  | minutes {N : String} {n : Int} (h : words s = ["*/" ++ N, "*", "*", "*", "*"])
      (hN : Spells N n) (hlong : Numeral.maxDigits < N.toList.length) : Stuck s
  | hours {N : String} {n : Int} (h : words s = ["0", "*/" ++ N, "*", "*", "*"])
      (hN : Spells N n) (hlong : Numeral.maxDigits < N.toList.length) : Stuck s

/-- The hour and the minute of a timing, if it has them, are those of a clock. -/
def InRange : Timing → Prop
  | .dailyAt hour minute => (0 ≤ hour ∧ hour ≤ 23) ∧ 0 ≤ minute ∧ minute ≤ 59
  | .weeklyAt _ hour minute => (0 ≤ hour ∧ hour ≤ 23) ∧ 0 ≤ minute ∧ minute ≤ 59
  | _ => True

instance (t : Timing) : Decidable (InRange t) := by
  cases t <;> unfold InRange <;> infer_instance

/-- The schedule for a timing that was asked for, none where it is out of range. -/
def granted : Timing → Option Schedule
  | .everyMinutes n => some (repeated .everyMinutes "minutes" n (Interval.snapMinutes n))
  | .everyHours n => some (repeated .everyHours "hours" n (Interval.snapHours n))
  | t => if InRange t then some ⟨t, none⟩ else none

/-! ## Fields -/

theorem stepDigits?_of_spells {N : String} {n : Int} (h : Spells N n) :
    stepDigits? ("*/" ++ N) = some N :=
  stepDigits?_eq_some.mpr ⟨rfl, h.ne_empty, h.decimal⟩

/-- A spelling names one day. -/
theorem ofText?_of_mem {D : String} {day : Weekday} (h : upper D ∈ day.spellings) :
    Weekday.ofText? D = some day := by
  have hall : (Weekday.all.all fun d => d.spellings.all fun x =>
      Weekday.all.find? (fun e => e.spellings.contains x) = some d) = true := by decide
  have hday : day ∈ Weekday.all := by cases day <;> decide
  have hone := List.all_eq_true.mp (List.all_eq_true.mp hall day hday) _ h
  exact of_decide_eq_true hone

theorem mem_of_ofText? {D : String} {day : Weekday} (h : Weekday.ofText? D = some day) :
    upper D ∈ day.spellings := by
  have hfound := List.find?_some h
  simpa using hfound

section

variable {M H : String} {minute hour : Int} (hM : Spells M minute) (hH : Spells H hour)
  (hm : ¬ Unreadable M) (hh : ¬ Unreadable H)
include hM hH hm hh

theorem timed?_daily : timed? M H "*" "*" "*" = .ok (granted (.dailyAt hour minute)) := by
  unfold timed? granted InRange
  rw [inRange?_of_spells hM hm, inRange?_of_spells hH hh]
  by_cases hminute : 0 ≤ minute ∧ minute ≤ 59 <;> by_cases hhour : 0 ≤ hour ∧ hour ≤ 23 <;>
    simp [hminute, hhour, bind, Except.bind, pure, Except.pure]

theorem timed?_weekly {D : String} {day : Weekday} (hD : upper D ∈ day.spellings) :
    timed? M H "*" "*" D = .ok (granted (.weeklyAt day hour minute)) := by
  have hstar : D ≠ "*" := by
    rintro rfl
    cases day <;> revert hD <;> decide
  unfold timed? granted InRange
  rw [inRange?_of_spells hM hm, inRange?_of_spells hH hh]
  by_cases hminute : 0 ≤ minute ∧ minute ≤ 59 <;> by_cases hhour : 0 ≤ hour ∧ hour ≤ 23 <;>
    simp [hminute, hhour, hstar, ofText?_of_mem hD, bind, Except.bind, pure, Except.pure]

end

theorem timed?_eq_error {M H A B D : String} :
    (∃ e, timed? M H A B D = .error e) ↔ Unreadable M ∨ Unreadable H := by
  unfold timed?
  cases hM : inRange? M 0 59 with
  | error e =>
    have hminute : Unreadable M := inRange?_eq_error.mp ⟨e, hM⟩
    exact iff_of_true ⟨e, rfl⟩ (Or.inl hminute)
  | ok atMinute =>
    have hminute : ¬ Unreadable M := fun h => by
      obtain ⟨e, he⟩ := inRange?_of_unreadable h 0 59
      rw [hM] at he
      cases he
    cases hH : inRange? H 0 23 with
    | error e =>
      have hhour : Unreadable H := inRange?_eq_error.mp ⟨e, hH⟩
      exact iff_of_true ⟨e, rfl⟩ (Or.inr hhour)
    | ok atHour =>
      have hhour : ¬ Unreadable H := fun h => by
        obtain ⟨e, he⟩ := inRange?_of_unreadable h 0 23
        rw [hH] at he
        cases he
      refine iff_of_false ?_ (not_or.mpr ⟨hminute, hhour⟩)
      rintro ⟨e, he⟩
      simp only [bind, Except.bind] at he
      split at he
      · split at he
        · split at he <;> cases he
        · cases he
      · cases he

/-- Five fields with a time of day ask for it. -/
theorem wants_of_timed? {s M H A B D : String} {found : Schedule} (hs : words s = [M, H, A, B, D])
    (h : timed? M H A B D = .ok (some found)) : ∃ t, Wants s t ∧ granted t = some found := by
  obtain ⟨atMinute, hminute, hrest⟩ := except_bind_eq_ok.mp h
  obtain ⟨atHour, hhour, hlast⟩ := except_bind_eq_ok.mp hrest
  split at hlast
  · obtain ⟨hM, hminute⟩ := inRange?_eq_some hminute
    obtain ⟨hH, hhour⟩ := inRange?_eq_some hhour
    split at hlast
    · rename_i hdate
      obtain ⟨rfl, rfl⟩ := hdate
      split at hlast
      · rename_i hD
        subst hD
        cases hlast
        exact ⟨_, .dailyAt hs hM hH, if_pos ⟨hhour, hminute⟩⟩
      · simp only [pure, Except.pure, Except.ok.injEq, Option.map_eq_some_iff] at hlast
        obtain ⟨day, hday, rfl⟩ := hlast
        exact ⟨_, .weeklyAt hs hM hH (mem_of_ofText? hday), if_pos ⟨hhour, hminute⟩⟩
    · cases hlast
  · cases hlast

theorem not_unreadable {c : Char} {field : String} (hc : isDigitLike c = false)
    (hmem : c ∈ field.toList) : ¬ Unreadable field := by
  intro h
  rw [h.digits c hmem] at hc
  cases hc

section

variable {N : String} {n : Int} (hN : Spells N n)
include hN

theorem ofFields?_minutes : ofFields? ("*/" ++ N) "*" "*" "*" "*" =
    if Numeral.maxDigits < N.toList.length then .error (.tooLong N.toList.length)
    else .ok (granted (.everyMinutes n)) := by
  unfold ofFields?
  simp only [stepDigits?_of_spells hN, hN.wholeOfText_eq, and_self, if_true]
  split <;> rfl

theorem ofFields?_hours : ofFields? "0" ("*/" ++ N) "*" "*" "*" =
    if Numeral.maxDigits < N.toList.length then .error (.tooLong N.toList.length)
    else .ok (granted (.everyHours n)) := by
  have hzero : stepDigits? "0" = none := by decide
  unfold ofFields?
  simp only [hzero, stepDigits?_of_spells hN, hN.wholeOfText_eq, and_self, if_true]
  split <;> rfl

end

/-- The fields are those of an interval in minutes. -/
def MinuteSteps (fields : List String) : Prop :=
  ∃ N n, Spells N n ∧ fields = ["*/" ++ N, "*", "*", "*", "*"]

/-- The fields are those of an interval in hours. -/
def HourSteps (fields : List String) : Prop :=
  ∃ N n, Spells N n ∧ fields = ["0", "*/" ++ N, "*", "*", "*"]

/-- Fields that are not those of an interval are taken for a time of day. -/
theorem ofFields?_timed {M H A B D : String} (hminutes : ¬ MinuteSteps [M, H, A, B, D])
    (hhours : ¬ HourSteps [M, H, A, B, D]) : ofFields? M H A B D = timed? M H A B D := by
  unfold ofFields?
  dsimp only
  split
  · rename_i N hstep
    refine if_neg ?_
    rintro ⟨rfl, rfl, rfl, rfl⟩
    obtain ⟨rfl, hne, hall⟩ := stepDigits?_eq_some.mp hstep
    exact hminutes ⟨N, _, ⟨hne, hall, rfl⟩, rfl⟩
  · rename_i N _ hstep
    refine if_neg ?_
    rintro ⟨rfl, rfl, rfl, rfl⟩
    obtain ⟨rfl, hne, hall⟩ := stepDigits?_eq_some.mp hstep
    exact hhours ⟨N, _, ⟨hne, hall, rfl⟩, rfl⟩
  · rfl

/-- Decimal fields are not those of an interval. -/
theorem ofFields?_of_spells {M H A B D : String} {minute hour : Int} (hM : Spells M minute)
    (hH : Spells H hour) : ofFields? M H A B D = timed? M H A B D := by
  have hstar : ∀ {field N : String} {n : Int}, Spells field n → field ≠ "*/" ++ N := by
    rintro field N n h rfl
    have hdecimal := h.decimal '*' (by simp)
    cases hdecimal
  refine ofFields?_timed ?_ ?_
  · rintro ⟨N, n, _, hfields⟩
    exact hstar hM (List.cons.inj hfields).1
  · rintro ⟨N, n, _, hfields⟩
    exact hstar hH (List.cons.inj (List.cons.inj hfields).2).1

section

variable {s M H A B D : String} (hs : words s = [M, H, A, B, D])
include hs

/-- What is found in the fields is what they ask for. -/
theorem wants_of_ofFields? {found : Schedule} (h : ofFields? M H A B D = .ok (some found)) :
    ∃ t, Wants s t ∧ granted t = some found := by
  by_cases hminutes : MinuteSteps [M, H, A, B, D]
  · obtain ⟨N, n, hN, hfields⟩ := hminutes
    cases hfields
    rw [ofFields?_minutes hN] at h
    split at h
    · cases h
    · exact ⟨_, .minutes hs hN, Except.ok.inj h⟩
  by_cases hhours : HourSteps [M, H, A, B, D]
  · obtain ⟨N, n, hN, hfields⟩ := hhours
    cases hfields
    rw [ofFields?_hours hN] at h
    split at h
    · cases h
    · exact ⟨_, .hours hs hN, Except.ok.inj h⟩
  rw [ofFields?_timed hminutes hhours] at h
  exact wants_of_timed? hs h

theorem stuck_of_ofFields? {e : NumberFault} (h : ofFields? M H A B D = .error e) : Stuck s := by
  by_cases hminutes : MinuteSteps [M, H, A, B, D]
  · obtain ⟨N, n, hN, hfields⟩ := hminutes
    cases hfields
    rw [ofFields?_minutes hN] at h
    split at h
    · rename_i hlong
      exact .minutes hs hN hlong
    · cases h
  by_cases hhours : HourSteps [M, H, A, B, D]
  · obtain ⟨N, n, hN, hfields⟩ := hhours
    cases hfields
    rw [ofFields?_hours hN] at h
    split at h
    · rename_i hlong
      exact .hours hs hN hlong
    · cases h
  rw [ofFields?_timed hminutes hhours] at h
  rcases timed?_eq_error.mp ⟨e, h⟩ with hM | hH
  · exact .minute hs hM
  · exact .hour hs hH

end

theorem ofFields?_of_unreadable {M H A B D : String} (h : Unreadable M ∨ Unreadable H) :
    ∃ e, ofFields? M H A B D = .error e := by
  have hstep : ∀ N, ¬ Unreadable ("*/" ++ N) := fun N =>
    not_unreadable (c := '*') (by decide) (by simp)
  have hstar : ¬ Unreadable "*" := not_unreadable (c := '*') (by decide) (by simp)
  have hzero : ¬ Unreadable "0" := fun hzero => by
    obtain ⟨e, he⟩ := hzero.fails
    cases he
  rw [ofFields?_timed]
  · exact timed?_eq_error.mpr h
  · rintro ⟨N, n, _, hfields⟩
    cases hfields
    exact h.elim (hstep N) hstar
  · rintro ⟨N, n, _, hfields⟩
    cases hfields
    exact h.elim hzero (hstep N)

end Schedule
end Flowscript
