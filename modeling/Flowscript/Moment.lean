-- Readings of the clock and their text.

namespace Flowscript

/-- An offset from universal time. -/
structure Offset where
  microseconds : Int
deriving DecidableEq, Repr

namespace Offset

/-- An offset of whole minutes. -/
def ofMinutes (n : Int) : Offset := ⟨n * 60000000⟩

instance : Coe Int Offset := ⟨ofMinutes⟩

instance (n : Nat) : OfNat Offset n := ⟨ofMinutes n⟩

end Offset

/-- A reading of the clock, with its offset if that is known. -/
structure Moment where
  year : Nat
  month : Nat
  day : Nat
  hour : Nat
  minute : Nat
  second : Nat
  microsecond : Nat
  offset : Option Offset
deriving DecidableEq, Repr

namespace Moment

/-- A number with leading zeros up to a width. -/
def padded (width n : Nat) : String :=
  let digits := toString n
  String.ofList (List.replicate (width - digits.length) '0') ++ digits

/-- A fraction of a second behind a point, if there is one. -/
def fractionText (microseconds : Nat) : String :=
  if microseconds = 0 then "" else "." ++ padded 6 microseconds

/-- The text of an offset: hours and minutes, and the rest of a minute where there is one. -/
def offsetText (offset : Offset) : String :=
  let size := offset.microseconds.natAbs
  let seconds := size / 1000000
  (if offset.microseconds < 0 then "-" else "+") ++ padded 2 (seconds / 3600) ++ ":" ++
    padded 2 (seconds / 60 % 60) ++
    if size % 60000000 = 0 then ""
    else ":" ++ padded 2 (seconds % 60) ++ fractionText (size % 1000000)

/-- The text of a reading: date, time, a fraction where there is one, and the offset. -/
def text (m : Moment) : String :=
  padded 4 m.year ++ "-" ++ padded 2 m.month ++ "-" ++ padded 2 m.day ++ "T" ++
    padded 2 m.hour ++ ":" ++ padded 2 m.minute ++ ":" ++ padded 2 m.second ++
    fractionText m.microsecond ++
    (match m.offset with
      | some offset => offsetText offset
      | none => "")

end Moment

end Flowscript
