import KBucket.Lib.DateFormat
import Mathlib.Data.Rat.Floor

/-!
# `DateUtils.swift`

`Date()` is an instant: the seconds, whole or not, since the start of 1970 in Greenwich. A formatter
shows it on the clock of the device's zone, whose distance from Greenwich may change in the course
of time. The device's calendar is the Gregorian one, and its digits are those of ASCII.
-/

namespace KBucket

/-- How many seconds the clock of a zone is ahead at a second of Greenwich. -/
structure TimeZone where
  secondsFromGMT : Int → Int

namespace TimeZone

/-- What the clock shows, to the second. -/
def clock (zone : TimeZone) (date : Rat) : Int := ⌊date⌋ + zone.secondsFromGMT ⌊date⌋

/-- A zone that keeps its distance. -/
def fixed (seconds : Int) : TimeZone := ⟨fun _ => seconds⟩

theorem clock_fixed_lt (seconds : Int) {a b : Rat} (h : a + 1 ≤ b) :
    (fixed seconds).clock a < (fixed seconds).clock b := by
  have hfloor : ⌊a⌋ + 1 ≤ ⌊b⌋ := by
    rw [← Int.floor_add_one]
    exact Int.floor_le_floor h
  simp only [clock, fixed]
  omega

end TimeZone

namespace DateUtils

def getStringDateFormat (zone : TimeZone) (todayDate : Rat) (pattern : String) : String :=
  Lib.DateFormat.format pattern (.ofSecond (zone.clock todayDate))

end DateUtils
end KBucket
