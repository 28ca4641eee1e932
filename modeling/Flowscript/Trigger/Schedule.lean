-- Schedules. A schedule text is an alias or has five fields: minute, hour,
-- day of the month, month and day of the week. A clock trigger knows only
-- some shapes of it; a text of another shape is replaced by a daily trigger,
-- with a note that says so.
import Flowscript.Journal
import Flowscript.Text.Case
import Flowscript.Trigger.Interval

namespace Flowscript

/-- A day of the week. -/
inductive Weekday where
  | sunday
  | monday
  | tuesday
  | wednesday
  | thursday
  | friday
  | saturday
deriving DecidableEq, Repr

namespace Weekday

/-- All days, in the order of their numbers. -/
def all : List Weekday := [sunday, monday, tuesday, wednesday, thursday, friday, saturday]

/-- The name of a day in code. -/
def name : Weekday → String
  | .sunday => "SUNDAY"
  | .monday => "MONDAY"
  | .tuesday => "TUESDAY"
  | .wednesday => "WEDNESDAY"
  | .thursday => "THURSDAY"
  | .friday => "FRIDAY"
  | .saturday => "SATURDAY"

/-- The texts that name a day: its number, where Sunday is both 0 and 7, and the first three
letters of its name. -/
def spellings : Weekday → List String
  | .sunday => ["0", "7", "SUN"]
  | .monday => ["1", "MON"]
  | .tuesday => ["2", "TUE"]
  | .wednesday => ["3", "WED"]
  | .thursday => ["4", "THU"]
  | .friday => ["5", "FRI"]
  | .saturday => ["6", "SAT"]

/-- The day that a text names, in any case. -/
def ofText? (s : String) : Option Weekday :=
  all.find? fun d => d.spellings.contains (Text.upper s)

end Weekday

/-- When a clock trigger fires. -/
inductive Timing where
  | everyMinutes (n : Int)
  | everyHours (n : Int)
  | everyDay
  | everyWeek
  | dailyAt (hour minute : Int)
  | weeklyAt (day : Weekday) (hour minute : Int)
deriving DecidableEq, Repr

/-- The calls that set up a clock trigger. -/
def Timing.chain : Timing → String
  | .everyMinutes n => s!"everyMinutes({n})"
  | .everyHours n => s!"everyHours({n})"
  | .everyDay => "everyDays(1)"
  | .everyWeek => "everyWeeks(1)"
  | .dailyAt hour minute => s!"everyDays(1).atHour({hour}).nearMinute({minute})"
  | .weeklyAt day hour minute =>
    s!"onWeekDay(ScriptApp.WeekDay.{day.name}).atHour({hour}).nearMinute({minute})"

/-- A timing, with a note where it is not what was asked for. -/
structure Schedule where
  timing : Timing
  note : Option String := none
deriving DecidableEq, Repr

namespace Schedule

/-- The timings that have a name. -/
def aliases : List (String × Timing) :=
  [("@hourly", .everyHours 1), ("@daily", .everyDay), ("@weekly", .everyWeek)]

/-- The digits of a field of the shape `*/N`. -/
def stepDigits? (field : String) : Option String :=
  match field.toList with
  | '*' :: '/' :: digits =>
    if !digits.isEmpty && digits.all Text.isDecimal then some (String.ofList digits) else none
  | _ => none

/-- The number in a field that looks like digits, if it is in the range. -/
def inRange? (field : String) (low high : Int) : Except NumberFault (Option Int) :=
  if field ≠ "" && field.toList.all Text.isDigitLike then do
    let n ← wholeOfText field
    return if low ≤ n && n ≤ high then some n else none
  else .ok none

/-- The schedule of a repeated interval. -/
def repeated (timing : Int → Timing) (unit : String) (wanted snapped : Int) : Schedule where
  timing := timing snapped
  note := if snapped = wanted then none
    else some s!"every {wanted} {unit} is not supported; using {snapped}"

/-- The schedule of a time of day, on every day or on one day of the week. -/
def timed? (minute hour day month weekday : String) : Except NumberFault (Option Schedule) := do
  let atMinute ← inRange? minute 0 59
  let atHour ← inRange? hour 0 23
  match atMinute, atHour with
  | some m, some h =>
    if day = "*" ∧ month = "*" then
      if weekday = "*" then return some ⟨.dailyAt h m, none⟩
      else return (Weekday.ofText? weekday).map fun d => ⟨.weeklyAt d h m, none⟩
    else return none
  | _, _ => return none

/-- The schedule of five fields, if a clock trigger knows the shape. -/
def ofFields? (minute hour day month weekday : String) :
    Except NumberFault (Option Schedule) :=
  let anyDate := day = "*" ∧ month = "*" ∧ weekday = "*"
  match stepDigits? minute, stepDigits? hour with
  | some digits, _ =>
    if hour = "*" ∧ anyDate then do
      let n ← wholeOfText digits
      return some (repeated .everyMinutes "minutes" n (Interval.snapMinutes n))
    else timed? minute hour day month weekday
  | none, some digits =>
    if minute = "0" ∧ anyDate then do
      let n ← wholeOfText digits
      return some (repeated .everyHours "hours" n (Interval.snapHours n))
    else timed? minute hour day month weekday
  | none, none => timed? minute hour day month weekday

/-- The schedule of a text, if a clock trigger knows its shape. -/
def ofShape? (text : String) : Except NumberFault (Option Schedule) :=
  match aliases.lookup text with
  | some timing => .ok (some ⟨timing, none⟩)
  | none => match Text.words text with
    | [minute, hour, day, month, weekday] => ofFields? minute hour day month weekday
    | _ => .ok none

/-- The schedule of a text; the empty text stands for every day. -/
def ofText (s : String) : Traced Schedule := do
  let text := Text.trim (if s = "" then "@daily" else s)
  match ← Traced.of ((ofShape? text).mapError .number) with
  | some schedule => return schedule
  | none =>
    Traced.note .warning s!"Unsupported schedule '{text}'; installing a daily trigger instead"
    return ⟨.everyDay, some s!"unsupported schedule '{text}', falling back to daily"⟩

end Schedule

end Flowscript
