-- Intervals that a clock trigger can have. A wanted interval is moved to the
-- closest allowed one, and of two that are equally close to the smaller.
import Flowscript.Number.Binary64

namespace Flowscript.Interval

/-- The allowed intervals in minutes. -/
def minutes : List Int := [1, 5, 10, 15, 30]

/-- The allowed intervals in hours. -/
def hours : List Int := [1, 2, 4, 6, 8, 12]

/-- Whether `a` fits `wanted` better than `b`: it is closer, or as close and smaller. -/
def fitsBetter (wanted a b : Int) : Bool :=
  let da := (a - wanted).natAbs
  let db := (b - wanted).natAbs
  da < db || (da == db && a < b)

/-- As `fitsBetter`, for a wanted interval that is no whole number. -/
def fitsRealBetter (wanted : Binary64) (a b : Int) : Bool :=
  let da := Binary64.distance (.ofInt a) wanted
  let db := Binary64.distance (.ofInt b) wanted
  if da.eq db then a < b else da.ltMagnitude db

/-- The first candidate that no other one beats. -/
def pick (better : Int → Int → Bool) : List Int → Option Int
  | [] => none
  | a :: rest => some (rest.foldl (fun best c => if better c best then c else best) a)

/-- The allowed interval that fits best, if there is any. -/
def snap? (wanted : Int) (allowed : List Int) : Option Int := pick (fitsBetter wanted) allowed

/-- As `snap?`, for a wanted interval that is no whole number. -/
def snapReal? (wanted : Binary64) (allowed : List Int) : Option Int :=
  pick (fitsRealBetter wanted) allowed

/-- The interval in minutes that fits best. -/
def snapMinutes (wanted : Int) : Int := (snap? wanted minutes).getD 1

/-- The interval in hours that fits best. -/
def snapHours (wanted : Int) : Int := (snap? wanted hours).getD 1

end Flowscript.Interval
