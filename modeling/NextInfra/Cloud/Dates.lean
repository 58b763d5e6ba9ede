import NextInfra.Query.Timestamp

/-!
# The dates of the two cloud connectors

Both sign the time of the clock, written by one and the same conversion.
-/

namespace NextInfra

namespace Cloud

/-- `civil_from_unix_secs`; the days of a `u64` of seconds are an `i64`. -/
def civilFromUnixSecs (unixSecs : Nat) : Nat × Int × Int :=
  let days : Int := (unixSecs / 86400 : Nat)
  let z := days + 719468
  let era := z.ediv 146097
  let dayOfEra := z.emod 146097
  let yearOfEra := (dayOfEra - dayOfEra.tdiv 1460 + dayOfEra.tdiv 36524 -
    dayOfEra.tdiv 146096).tdiv 365
  let year := yearOfEra + era * 400
  let dayOfYear := dayOfEra - (365 * yearOfEra + yearOfEra.tdiv 4 - yearOfEra.tdiv 100)
  let monthPrime := (5 * dayOfYear + 2).tdiv 153
  let day := dayOfYear - (153 * monthPrime + 2).tdiv 5 + 1
  let month := if monthPrime < 10 then monthPrime + 3 else monthPrime - 9
  let year := if month ≤ 2 then year + 1 else year
  ((year.emod (2 ^ 32)).toNat, month, day)

def formatUtcDate (unixSecs : Nat) : String :=
  let (year, month, day) := civilFromUnixSecs unixSecs
  padded 4 year ++ "-" ++ padded 2 month ++ "-" ++ padded 2 day

end Cloud

end NextInfra
