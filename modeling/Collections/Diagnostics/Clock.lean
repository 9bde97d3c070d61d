set_option autoImplicit false

namespace Collections.Diagnostics

structure Moment where
  milliseconds : Int

namespace Moment

def perDay : Int := 86400000

def InCalendar (moment : Moment) : Prop := moment.milliseconds.natAbs ≤ 100000000 * perDay

instance (moment : Moment) : Decidable moment.InCalendar := by
  unfold InCalendar
  infer_instance

def monthNames : List String :=
  ["Jan", "Feb", "Mar", "Apr", "May", "Jun", "Jul", "Aug", "Sep", "Oct", "Nov", "Dec"]

/--
Month, from zero, and day of the month. Days are counted from the first of March of the year zero,
so that a leap day ends its year; four centuries have 146097 days.
-/
def monthAndDay (moment : Moment) : Nat × Nat :=
  let day := (moment.milliseconds / perDay + 719468) % 146097
  let year := (day - day / 1460 + day / 36524 - day / 146096) / 365
  let dayOfYear := day - (365 * year + year / 4 - year / 100)
  let month := (5 * dayOfYear + 2) / 153
  let dayOfMonth := dayOfYear - (153 * month + 2) / 5 + 1
  (((month + 2) % 12).toNat, dayOfMonth.toNat)

def millisecondOfDay (moment : Moment) : Nat := (moment.milliseconds % perDay).toNat

def padded (width value : Nat) : String :=
  let digits := Nat.toDigits 10 value
  String.ofList (List.replicate (width - digits.length) '0' ++ digits)

def stamp (moment : Moment) : String :=
  let (month, day) := moment.monthAndDay
  let time := moment.millisecondOfDay
  monthNames.getD month "" ++ "-" ++ padded 2 day ++ " " ++
    padded 2 (time / 3600000) ++ ":" ++ padded 2 (time / 60000 % 60) ++ ":" ++
    padded 2 (time / 1000 % 60) ++ "." ++ padded 3 (time % 1000)

end Moment

end Collections.Diagnostics
