import NextInfra.Core.LocalRelation
import NextInfra.Query.Projection

/-!
# Timestamps of the query DTOs

`format_timestamp` and `parse_timestamp` of the committed query source, with the
two calendar conversions they rest on. The arithmetic is on `i64`; where a
written part can be out of range for it, the product wraps.
-/

namespace NextInfra

open Sql

/-! ## §1  Writing -/

/-- `{value:0width}`: the sign counts to the width. -/
def padded (width : Nat) (value : Int) : String :=
  let digits := toString value.natAbs
  if value < 0 then "-" ++ String.ofList (List.replicate (width - 1 - digits.length) '0') ++ digits
  else String.ofList (List.replicate (width - digits.length) '0') ++ digits

/-- `civil_from_days`: year, month and day. -/
def civilFromDays (daysSinceEpoch : Int) : Int × Int × Int :=
  let z := daysSinceEpoch + 719468
  let era := (if 0 ≤ z then z else z - 146096).ediv 146097
  let doe := z - era * 146097
  let yoe := (doe - doe.tdiv 1460 + doe.tdiv 36524 - doe.tdiv 146096).ediv 365
  let year := yoe + era * 400
  let doy := doe - (365 * yoe + yoe.tdiv 4 - yoe.tdiv 100)
  let monthPart := (5 * doy + 2).ediv 153
  let day := doy - (153 * monthPart + 2).ediv 5 + 1
  let month := monthPart + if monthPart < 10 then 3 else -9
  let year := year + if month ≤ 2 then 1 else 0
  (year, month, day)

def formatTimestamp (timestamp : Timestamp) : String :=
  let millis : Int := timestamp.unixMillis
  let seconds := millis.ediv 1000
  let milliseconds := millis.emod 1000
  let days := seconds.ediv 86400
  let secondsOfDay := seconds.emod 86400
  let (year, month, day) := civilFromDays days
  let hour := secondsOfDay.tdiv 3600
  let minute := (secondsOfDay.tmod 3600).tdiv 60
  let second := secondsOfDay.tmod 60
  padded 4 year ++ "-" ++ padded 2 month ++ "-" ++ padded 2 day ++ "T" ++ padded 2 hour ++ ":" ++
    padded 2 minute ++ ":" ++ padded 2 second ++ "." ++ padded 3 milliseconds ++ "Z"

example : formatTimestamp ⟨1709251199999, by decide⟩ = "2024-02-29T23:59:59.999Z" := by
  decide +kernel

/-! ## §2  Reading -/

/-- `i64` arithmetic that wraps. -/
def wrapI64 (value : Int) : Int := value.bmod (2 ^ 64)

/-- `checked_add` and its siblings: the value, when it is an `i64`. -/
def checkedI64 (value : Int) : Option Int :=
  if -(2 ^ 63) ≤ value ∧ value < 2 ^ 63 then some value else none

/-- `days_from_civil`: none for a day the month does not have. -/
def daysFromCivil (year month day : Int) : Option Int :=
  let monthDays : List Int := [31, 28, 31, 30, 31, 30, 31, 31, 30, 31, 30, 31]
  let leap := year.tmod 4 == 0 && (year.tmod 100 != 0 || year.tmod 400 == 0)
  let maxDay := monthDays.getD (month - 1).toNat 0 + if month == 2 && leap then 1 else 0
  if day < 1 ∨ maxDay < day then none
  else
    let adjustedYear := wrapI64 (year - if month ≤ 2 then 1 else 0)
    let era := (if 0 ≤ adjustedYear then adjustedYear else wrapI64 (adjustedYear - 399)).ediv 400
    let yearOfEra := wrapI64 (adjustedYear - wrapI64 (era * 400))
    let monthPart := month + if 2 < month then -3 else 9
    let dayOfYear := (153 * monthPart + 2).ediv 5 + day - 1
    let dayOfEra := wrapI64 (yearOfEra * 365) + yearOfEra.tdiv 4 - yearOfEra.tdiv 100 + dayOfYear
    do
      let value ← checkedI64 (era * 146097)
      let value ← checkedI64 (value + dayOfEra)
      checkedI64 (value - 719468)

/-- The three numbers of a date or a clock, split at the separator. -/
def threeNumbers (sep : Char) (text : List Char) : Option (Int × Int × Int) :=
  match text.splitOn sep with
  | [a, b, c] => do
      let a ← parseI64 a
      let b ← parseI64 b
      let c ← parseI64 c
      return (a, b, c)
  | _ => none

/-- The fraction in milliseconds: at most three digits, or nothing. -/
def fractionMillis (fraction : List Char) : Option Int :=
  if fraction = [] then some 0
  else if 3 < fraction.length ∨ fraction.any (fun c => !c.isDigit) then none
  else (parseI64 fraction).map fun parsed => parsed * 10 ^ (3 - fraction.length)

/-- The instant a date and a time of day name, in milliseconds. -/
def instantMillis (date time : List Char) : Option Int := do
  let (year, month, day) ← threeNumbers '-' date
  if ¬ (1 ≤ month ∧ month ≤ 12) ∨ day = 0 then none
  else
    let (clock, fraction) := (splitOnce '.' time).getD (time, [])
    let (hour, minute, second) ← threeNumbers ':' clock
    if 23 < hour ∨ 59 < minute ∨ 59 < second then none
    else
      let fraction ← fractionMillis fraction
      let days ← daysFromCivil year month day
      let value ← checkedI64 (days * 86400000)
      let value ← checkedI64 (value + wrapI64 (hour * 3600000))
      let value ← checkedI64 (value + wrapI64 (minute * 60000))
      let value ← checkedI64 (value + wrapI64 (second * 1000))
      let value ← checkedI64 (value + fraction)
      if 0 ≤ value then some value else none

/-- `parse_timestamp`: a number of milliseconds, or a date and a time in UTC.
The error is the text of `QuerySourceError::Contract`. -/
def parseTimestamp (value : String) : Except String Int :=
  match parseI64 value.toList with
  | some millis => if 0 ≤ millis then .ok millis else .error "timestamp is invalid"
  | none =>
      match value.toList.getLast? with
      | some 'Z' =>
          match splitOnce 'T' value.toList.dropLast with
          | none => .error "timestamp is invalid"
          | some (date, time) =>
              match instantMillis date time with
              | none => .error "timestamp is invalid"
              | some millis => .ok millis
      | _ => .error "timestamp must be UTC"

example : (parseTimestamp "2024-02-29T23:59:59.999Z").toOption = some 1709251199999 := by
  decide +kernel

end NextInfra
